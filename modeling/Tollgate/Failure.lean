/-!
What can go wrong in the service, and how it is told to clients.
-/

namespace Tollgate

/-- The part of the service that a failure comes from. -/
inductive FailureKind
  | config
  | store
  | crypto
  | encoding
  | ownerResolution
  | replayStore
  | loadSource
  | invalidInput
  | internal
  | timeout
deriving DecidableEq, Repr

namespace FailureKind

def heading : FailureKind → String
  | .config => "Configuration error"
  | .store => "Redis error"
  | .crypto => "Crypto error"
  | .encoding => "Encoding error"
  | .ownerResolution => "Owner resolution error"
  | .replayStore => "Replay store error"
  | .loadSource => "Load source error"
  | .invalidInput => "Invalid input"
  | .internal => "Internal error"
  | .timeout => "Operation timed out"

/-- The HTTP status that answers it. -/
def status : FailureKind → Nat
  | .config | .crypto | .encoding | .internal => 500
  | .store | .replayStore | .loadSource => 503
  | .ownerResolution => 404
  | .invalidInput => 400
  | .timeout => 504

/-- Whether trying again may help. -/
def isRetryable : FailureKind → Bool
  | .store | .replayStore | .loadSource | .timeout => true
  | _ => false

end FailureKind

/-- A failure and its cause in words. -/
structure Failure where
  kind : FailureKind
  text : String
deriving DecidableEq, Repr

def Failure.message (failure : Failure) : String :=
  failure.kind.heading ++ ": " ++ failure.text

/-- What ends the computation at hand: arithmetic that leaves its range, or a list without an end in
sight. -/
inductive Crash
  | clockOverflow
  | sumOverflow
  | lengthOverflow
deriving DecidableEq, Repr

def Crash.message : Crash → String
  | .clockOverflow => "overflow when adding duration to instant"
  | .sumOverflow => "attempt to add with overflow"
  | .lengthOverflow => "capacity overflow"

/-- The largest number of bytes of a list whose length is told by a number. -/
def longestList : Nat := 0x7fffffffffffffff

end Tollgate
