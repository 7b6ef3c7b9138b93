import Tollgate.Difficulty.Series
import Tollgate.Server.Basic

/-!
What administrators may see and change while the service runs: rate limits, single callers, and the
difficulty of sites.

A request that is refused changes nothing in the limiter.
-/

namespace Tollgate

/-- Limits as a request tells them. -/
structure LimitsBody where
  capacity : UInt32
  /-- Seconds to refill one token. -/
  interval : Float

namespace LimitsBody

def fields : List (Field LimitsBody) := [
  .of "capacity" .required .word32 fun b capacity => { b with capacity },
  .of "interval_secs" .required .float fun b interval => { b with interval }]

def codec : Codec LimitsBody :=
  .record fields ⟨0, 0.0⟩

def limits (b : LimitsBody) : Except ApiFault Rate.Limits :=
  (Rate.Limits.ofSeconds b.capacity b.interval).mapError fun fault =>
    .failed ⟨.invalidInput, fault.summary⟩

end LimitsBody

/-- The limits of both kinds of callers as a request tells them. -/
structure PolicyBody where
  default : LimitsBody
  promoted : LimitsBody

namespace PolicyBody

def fields : List (Field PolicyBody) := [
  .of "default" .required LimitsBody.codec fun b default => { b with default },
  .of "promoted" .required LimitsBody.codec fun b promoted => { b with promoted }]

def codec : Codec PolicyBody :=
  .record fields ⟨⟨0, 0.0⟩, ⟨0, 0.0⟩⟩

def policy (b : PolicyBody) : Except ApiFault Rate.Policy := do
  let default ← b.default.limits
  let promoted ← b.promoted.limits
  return ⟨default, promoted⟩

end PolicyBody

/-- Which caller to promote, and to which limits if they are its own. -/
structure PromoteRequest where
  /-- The caller's key in the limiter. -/
  caller : String
  capacity : Option UInt32
  interval : Option Float

namespace PromoteRequest

def fields : List (Field PromoteRequest) := [
  .of "caller" .required .text fun r caller => { r with caller },
  .of "capacity" .optional (.optional .word32) fun r capacity => { r with capacity },
  .of "interval_secs" .optional (.optional .float) fun r interval => { r with interval }]

def codec : Codec PromoteRequest :=
  .record fields ⟨"", none, none⟩

/-- The limits to promote to, none if they are those of promoted callers in general. -/
def limits (r : PromoteRequest) : Except ApiFault (Option Rate.Limits) :=
  match r.capacity, r.interval with
  | none, none => .ok none
  | some capacity, some interval => some <$> LimitsBody.limits ⟨capacity, interval⟩
  | _, _ =>
    .error (.failed ⟨.invalidInput, "capacity and interval_secs must be given together"⟩)

end PromoteRequest

def Rate.Limits.toJson (l : Rate.Limits) : Json :=
  .object [
    ("capacity", .integer l.capacity.toNat),
    ("interval_secs", .float l.interval.toSeconds)]

def Rate.Policy.toJson (p : Rate.Policy) : Json :=
  .object [("default", p.default.toJson), ("promoted", p.promoted.toJson)]

/-- The difficulty of a site as administrators see it. -/
def Site.report (site : Site) (snapshot : Snapshot) (now : Instant) : Json :=
  .object [
    ("site_key", .text site.siteKey),
    ("level", .integer snapshot.level.bits.toNat),
    ("target", .integer snapshot.target.bits.toNat),
    ("low", .integer site.profile.low.bits.toNat),
    ("medium", .integer site.profile.medium.bits.toNat),
    ("high", .integer site.profile.high.bits.toNat),
    ("growth", .text site.profile.growth.name),
    ("load_rps", .float snapshot.rate),
    ("version", .integer snapshot.version),
    ("refreshed_secs_ago",
      snapshot.refreshedAt.elim .null fun t => .integer (now.since t / 1000000000 : Nat))]

namespace Server

def showPolicy (s : Server) : Answer :=
  .ok (.json 200 s.limiter.policy.toJson)

/-- Puts other limits into force; buckets keep their tokens. -/
def changePolicy (s : Server) (body : PolicyBody) : Answer × Server :=
  match body.policy with
  | .error fault => (fault.response, s)
  | .ok policy =>
    (.ok (.json 200 policy.toJson), { s with limiter := s.limiter.updatePolicy policy })

/-- Promotes a caller, and tells the limits that it has from now on. -/
def promote (s : Server) (request : PromoteRequest) (now : Instant) : Answer × Server :=
  match request.limits with
  | .error fault => (fault.response, s)
  | .ok own =>
    let limiter := match own with
      | some limits => s.limiter.promoteCaller request.caller limits now
      | none => s.limiter.promote request.caller now
    let limits := own.getD limiter.policy.promoted
    let answer := Json.object [("caller", .text request.caller), ("limits", limits.toJson)]
    (.ok (.json 200 answer), { s with limiter })

def showDifficulty (s : Server) (now : Instant) : Answer :=
  .ok (.json 200 (.array (s.sites.sorted.map fun site =>
    site.report site.controller.snapshot now)))

/-- Refreshes the difficulty of a site from the load of the last minutes. -/
def refresh (s : Server) (siteKey : String) (now : Moment) : Answer × Server :=
  match s.sites.get? siteKey with
  | none => ((ApiFault.unknownSite siteKey).response, s)
  | some site =>
    let (snapshot, site) :=
      site.refresh (LoadSeries.sample s.store siteKey s.window now) now.clock
    let s := { s with sites := s.sites.put site }
    match snapshot with
    | .ok snapshot => (.ok (.json 200 (site.report snapshot now.clock)), s)
    | .error failure => ((ApiFault.failed failure).response, s)

end Server

end Tollgate
