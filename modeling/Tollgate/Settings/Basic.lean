import Tollgate.Difficulty.Controller
import Tollgate.Net.Network
import Tollgate.Owner
import Tollgate.Rate.Interval
import Tollgate.Rate.Limiter
import Tollgate.Verify.Outcome

/-!
The settings of the service, as they are written and as they are used.
-/

namespace Tollgate

/-- Where presentations are counted. -/
inductive ReplayBackend
  /-- In the store that all nodes share. -/
  | shared
  /-- In the memory of one node. -/
  | memory
deriving DecidableEq, Repr

namespace ReplayBackend

def name : ReplayBackend → String
  | .shared => "redis"
  | .memory => "memory"

def ofName? : String → Option ReplayBackend
  | "redis" => some .shared
  | "memory" => some .memory
  | _ => none

def codec : Codec ReplayBackend :=
  .choice ofName?

end ReplayBackend

/-- The settings of the limiter. -/
structure RateSettings where
  defaultCapacity : UInt32 := 10
  /-- Seconds to refill one token. -/
  defaultInterval : Float := 2.0
  promotedCapacity : UInt32 := 20
  promotedInterval : Float := 1.0
  maxBuckets : Nat := 1000
  shards : Nat := 16
  idleTtlSeconds : UInt64 := 600
  cleanupSeconds : UInt64 := 60

namespace RateSettings

def fields : List (Field RateSettings) := [
  .of "default_capacity" .defaulted .word32 fun s defaultCapacity => { s with defaultCapacity },
  .of "default_interval_secs" .defaulted .float fun s defaultInterval => { s with defaultInterval },
  .of "promoted_capacity" .defaulted .word32 fun s promotedCapacity => { s with promotedCapacity },
  .of "promoted_interval_secs" .defaulted .float fun s promotedInterval =>
    { s with promotedInterval },
  .of "max_buckets" .defaulted (.natural 0xffffffffffffffff) fun s maxBuckets => { s with maxBuckets },
  .of "shards" .defaulted (.natural 0xffffffffffffffff) fun s shards => { s with shards },
  .of "idle_ttl_secs" .defaulted .word64 fun s idleTtlSeconds => { s with idleTtlSeconds },
  .of "cleanup_interval_secs" .defaulted .word64 fun s cleanupSeconds => { s with cleanupSeconds }]

def codec : Codec RateSettings :=
  .record fields {}

/-- The limits of both kinds of callers. -/
def policy (s : RateSettings) : Except Rate.IntervalFault Rate.Policy := do
  let default ← Rate.Limits.ofSeconds s.defaultCapacity s.defaultInterval
  let promoted ← Rate.Limits.ofSeconds s.promotedCapacity s.promotedInterval
  return ⟨default, promoted⟩

def limiter (s : RateSettings) : Except Rate.IntervalFault Rate.LimiterSettings := do
  return ⟨s.maxBuckets, s.shards, .ofSeconds s.idleTtlSeconds, ← s.policy⟩

/-- The time between two sweeps of idle buckets, at least a second. -/
def cleanupInterval (s : RateSettings) : Duration :=
  .ofSeconds (max s.cleanupSeconds 1)

end RateSettings

/-- The settings of all difficulty controllers. -/
structure DifficultySettings where
  refreshSeconds : UInt64 := 180
  epochSeconds : UInt64 := 900
  /-- The load considered normal, in requests per second and site. -/
  baseline : Float := 5.0
  /-- How many minutes of load a sample spans. -/
  windowMinutes : UInt32 := 5
  stepDownMargin : UInt8 := 2

namespace DifficultySettings

def fields : List (Field DifficultySettings) := [
  .of "refresh_interval_secs" .defaulted .word64 fun s refreshSeconds => { s with refreshSeconds },
  .of "epoch_secs" .defaulted .word64 fun s epochSeconds => { s with epochSeconds },
  .of "baseline_rps" .defaulted .float fun s baseline => { s with baseline },
  .of "window_minutes" .defaulted .word32 fun s windowMinutes => { s with windowMinutes },
  .of "step_down_margin" .defaulted .byte fun s stepDownMargin => { s with stepDownMargin }]

def codec : Codec DifficultySettings :=
  .record fields {}

/-- Refreshes are at least a second apart. -/
def controller (s : DifficultySettings) : ControllerSettings :=
  ⟨.ofSeconds (max s.refreshSeconds 1), .ofSeconds s.epochSeconds, s.stepDownMargin⟩

end DifficultySettings

/-- The settings of one protected site. -/
structure SiteSettings where
  /-- The public name of the site. -/
  siteKey : String
  owner : Owner
  low : UInt8 := 10
  medium : UInt8 := 14
  high : UInt8 := 18
  growth : Growth := .medium
  validitySeconds : UInt64 := 300
  solutions : UInt8 := 8
  allowReplay : Bool := false
  maxReplayCount : UInt32 := 0
deriving DecidableEq

namespace SiteSettings

def fields : List (Field SiteSettings) := [
  .of "site_key" .required .text fun s siteKey => { s with siteKey },
  .of "owner_id" .required Owner.codec fun s owner => { s with owner },
  .of "low" .defaulted .byte fun s low => { s with low },
  .of "medium" .defaulted .byte fun s medium => { s with medium },
  .of "high" .defaulted .byte fun s high => { s with high },
  .of "growth" .defaulted Growth.codec fun s growth => { s with growth },
  .of "validity_secs" .defaulted .word64 fun s validitySeconds => { s with validitySeconds },
  .of "solutions" .defaulted .byte fun s solutions => { s with solutions },
  .of "allow_replay" .defaulted .boolean fun s allowReplay => { s with allowReplay },
  .of "max_replay_count" .defaulted .word32 fun s maxReplayCount => { s with maxReplayCount }]

def codec : Codec SiteSettings :=
  .record fields { siteKey := "", owner := default }

/-- The difficulty profile; levels beyond the highest one count as that one. -/
def profile (s : SiteSettings) : Profile where
  low := .ofBits s.low
  medium := .ofBits s.medium
  high := .ofBits s.high
  growth := s.growth
  validitySeconds := s.validitySeconds
  solutions := s.solutions

def replay (s : SiteSettings) : ReplayPolicy :=
  ⟨s.allowReplay, s.maxReplayCount⟩

def toJson (s : SiteSettings) : Json :=
  .object [
    ("site_key", .text s.siteKey),
    ("owner_id", .text s.owner.display),
    ("low", .integer s.low.toNat),
    ("medium", .integer s.medium.toNat),
    ("high", .integer s.high.toNat),
    ("growth", .text s.growth.name),
    ("validity_secs", .integer s.validitySeconds.toNat),
    ("solutions", .integer s.solutions.toNat),
    ("allow_replay", .bool s.allowReplay),
    ("max_replay_count", .integer s.maxReplayCount.toNat)]

end SiteSettings

/-- All settings of the service. -/
structure Settings where
  /-- Where the shared store is reached. -/
  storeUrl : String := "redis://127.0.0.1:6379"
  listenAddress : String := "127.0.0.1:8888"
  /-- The secret that puzzles are authenticated with; without one, a fresh one is drawn. -/
  secret : Option String := none
  /-- The keys whose callers are promoted. -/
  apiKeys : List String := []
  /-- The proxies whose word on a client's address is taken. -/
  trustedProxies : List String := []
  verifyTimeoutMillis : UInt64 := 2000
  replayBackend : ReplayBackend := .shared
  rates : RateSettings := {}
  difficulty : DifficultySettings := {}
  sites : List SiteSettings := []

namespace Settings

def fields : List (Field Settings) := [
  .of "redis_url" .defaulted .text fun s storeUrl => { s with storeUrl },
  .of "listen_addr" .defaulted .text fun s listenAddress => { s with listenAddress },
  .of "secret_key" .defaulted (.optional .text) fun s secret => { s with secret },
  .of "api_keys" .defaulted (.list .text) fun s apiKeys => { s with apiKeys },
  .of "trusted_proxies" .defaulted (.list .text) fun s trustedProxies => { s with trustedProxies },
  .of "verify_timeout_ms" .defaulted .word64 fun s verifyTimeoutMillis =>
    { s with verifyTimeoutMillis },
  .of "replay_backend" .defaulted ReplayBackend.codec fun s replayBackend =>
    { s with replayBackend },
  .of "rate_limit" .defaulted RateSettings.codec fun s rates => { s with rates },
  .of "difficulty" .defaulted DifficultySettings.codec fun s difficulty => { s with difficulty },
  .of "sites" .defaulted (.list SiteSettings.codec) fun s sites => { s with sites }]

def codec : Codec Settings :=
  .record fields {}

/-- The longest time that a verification may take, at least a millisecond. -/
def verifyTimeout (s : Settings) : Duration :=
  .ofMillis (max s.verifyTimeoutMillis 1)

/-- A text that names no network. -/
structure ProxyFault where
  entry : String
deriving DecidableEq, Repr

def ProxyFault.message (fault : ProxyFault) : String :=
  "invalid trusted proxy '" ++ Text.trim fault.entry ++ "': invalid IP address syntax"

/-- The networks of the trusted proxies. -/
def networks (s : Settings) : Except ProxyFault (List Network) :=
  s.trustedProxies.mapM fun entry =>
    match Network.parse? entry with
    | some network => .ok network
    | none => .error ⟨entry⟩

end Settings

end Tollgate
