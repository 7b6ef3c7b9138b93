import Tollgate.Net.Caller
import Tollgate.Server.ApiFault
import Tollgate.Sites
import Tollgate.Verify.SharedReplay

/-!
The state of a running service, how it starts, and how callers are admitted.
-/

namespace Tollgate

/-- A running service, and the store that it shares with others. -/
structure Server where
  settings : Settings
  limiter : Rate.Limiter String
  sites : SiteRegistry
  verifier : Verifier
  /-- The counters of presentations, if they are kept in memory. -/
  ledger : Option ReplayLedger
  /-- The networks of the trusted proxies. -/
  networks : List Network
  store : Store
  startedAt : Instant

namespace Server

/-- Why a service does not start. -/
inductive StartFault
  | secret (cause : PuzzleKey.Fault)
  | rates (cause : Rate.IntervalFault)
  | proxy (cause : Settings.ProxyFault)
deriving Repr

def StartFault.message : StartFault → String
  | .secret cause => "Invalid secret_key: " ++ cause.failure.message
  | .rates cause => cause.message
  | .proxy cause => cause.message

/-- How many counters of presentations are kept in memory. -/
def ledgerCapacity : Nat := 100000

/-- The key of the configured secret, or else a fresh one. -/
def keyOf (settings : Settings) (fresh : PuzzleKey) : Except StartFault PuzzleKey :=
  match settings.secret with
  | some secret => (PuzzleKey.ofText secret).mapError .secret
  | none => .ok fresh

/-- The sites of some settings. -/
def sitesOf (settings : Settings) (now : Instant) : SiteRegistry :=
  .ofList (settings.sites.map fun site =>
    .ofSettings site settings.difficulty.baseline settings.difficulty.controller now)

/-- A service that nobody has asked for anything yet. Keys of the limiter are placed in its shards by
`place`. -/
def start (settings : Settings) (fresh : PuzzleKey) (place : String → Nat) (store : Store)
    (now : Instant) : Except Crash (Except StartFault Server) := do
  let prepared := do
    let key ← keyOf settings fresh
    let rates ← settings.rates.limiter.mapError .rates
    return (key, rates)
  match prepared with
  | .error fault => return .error fault
  | .ok (key, rates) =>
    let limiter ← Rate.Limiter.create rates place
    return do
      let networks ← settings.networks.mapError .proxy
      return {
        settings
        limiter
        sites := sitesOf settings now
        verifier := .new key
        ledger := if settings.replayBackend = .memory then some (.new ledgerCapacity) else none
        networks
        store
        startedAt := now }

/-- The key that puzzles are authenticated with. -/
def key (s : Server) : PuzzleKey :=
  s.verifier.key

/-- How many minutes of load a sample spans. -/
def window (s : Server) : Nat :=
  s.settings.difficulty.windowMinutes.toNat

/-- The caller of a request. -/
def callerOf (s : Server) (r : Http.Request) : Caller :=
  .identify r.headers r.peer s.settings.apiKeys s.networks

/-- The limiter as a request finds it: a caller with an API key that has no bucket yet, or an ordinary
one, is promoted first. -/
def limiterFor (s : Server) (caller : Caller) (now : Instant) : Rate.Limiter String :=
  match caller with
  | .apiKey _ =>
    if s.limiter.isPromoted caller.limiterKey then s.limiter
    else s.limiter.promote caller.limiterKey now
  | .address _ => s.limiter

/-- Admits a caller, or tells it how long to wait. -/
def admitCaller (s : Server) (caller : Caller) (now : Instant) :
    Except ApiFault Unit × Server :=
  let (admission, limiter) := (s.limiterFor caller now).admitAt caller.limiterKey now
  let s := { s with limiter }
  match admission with
  | .allowed => (.ok (), s)
  | .denied => (.error (.rateLimited (limiter.retryAfter caller.limiterKey now)), s)

/-- How handling a request ends. -/
abbrev Answer := Except Crash Http.Response

end Server

end Tollgate
