import Tollgate.Failure
import Tollgate.Http.Message
import Tollgate.Time.Duration

/-!
Why a request is refused, and the response that says so.
-/

namespace Tollgate

/-- Why a request is refused. -/
inductive ApiFault
  | rateLimited (wait : Duration)
  | unknownSite (siteKey : String)
  | failed (cause : Failure)
deriving DecidableEq

namespace ApiFault

def status : ApiFault → Nat
  | .rateLimited _ => 429
  | .unknownSite _ => 404
  | .failed cause => cause.kind.status

def message : ApiFault → String
  | .rateLimited _ => "rate limit exceeded"
  | .unknownSite siteKey => "unknown site key '" ++ siteKey ++ "'"
  | .failed cause => cause.message

/-- The whole seconds that a client is told to wait, rounded up so that it does not come back early, and
at least one. They are counted in 64 bits. -/
def retrySeconds (wait : Duration) : Except Crash Nat :=
  let seconds := wait.seconds + (if wait.subsecNanos = 0 then 0 else 1)
  if seconds ≤ 0xffffffffffffffff then .ok (max seconds 1) else .error .sumOverflow

/-- The body of an error response. -/
def body (message : String) : Json :=
  .object [("error", .text message)]

def response (fault : ApiFault) : Except Crash Http.Response :=
  let plain := Http.Response.json fault.status (body fault.message)
  match fault with
  | .rateLimited wait => do
    return plain.withHeader "retry-after" (toString (← retrySeconds wait))
  | _ => .ok plain

end ApiFault

end Tollgate
