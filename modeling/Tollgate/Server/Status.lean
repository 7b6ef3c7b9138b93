import Tollgate.Server.Basic

/-!
What the service tells about itself: that it runs, that it is ready, and its counts.
-/

namespace Tollgate

def Rate.Limiter.report (l : Rate.Limiter String) : Json :=
  .object [
    ("tracked", .integer l.size),
    ("allowed", .integer l.counts.allowed),
    ("denied", .integer l.counts.denied),
    ("evicted", .integer l.counts.evicted),
    ("promoted", .integer l.counts.promoted),
    ("purged", .integer l.counts.purged),
    ("policy_generation", .integer l.edition.generation)]

def Tally.report (t : Tally) : Json :=
  .object [
    ("success", .integer t.success),
    ("expired", .integer t.expired),
    ("owner_mismatch", .integer t.ownerMismatch),
    ("proof_invalid", .integer t.proofInvalid),
    ("replay_exceeded", .integer t.replayExceeded),
    ("malformed", .integer t.malformed)]

/-- The counts of a site. -/
def Site.metrics (site : Site) : Json :=
  .object [
    ("site_key", .text site.siteKey),
    ("difficulty", .integer site.controller.level.bits.toNat),
    ("load_rps", .float site.controller.snapshot.rate),
    ("refresh_failures", .integer site.controller.failures)]

namespace Server

def version : String := "0.1.0"

def health : Answer :=
  .ok (.json 200 (.object [("status", .text "ok"), ("version", .text version)]))

/-- The service is ready while the shared store can be reached. -/
def ready (s : Server) : Answer :=
  if s.store.isDown then .ok ⟨503, [], .empty⟩
  else .ok (.json 200 (.object [("status", .text "ready"), ("redis", .bool true)]))

def metrics (s : Server) (now : Instant) : Answer :=
  .ok (.json 200 (.object [
    ("uptime_secs", .integer (now.since s.startedAt / 1000000000 : Nat)),
    ("limiter", s.limiter.report),
    ("verifier", s.verifier.tally.report),
    ("sites", .array (s.sites.sorted.map Site.metrics))]))

end Server

end Tollgate
