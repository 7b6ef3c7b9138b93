import Tollgate.Puzzle.Token
import Tollgate.Time.Duration

/-!
Issuing puzzles.

What is random about a puzzle is handed in, so that issuing is a function of its arguments.
-/

namespace Tollgate

/-- What puzzle to issue. -/
structure PuzzleParams where
  owner : Owner
  difficulty : Level
  solutions : UInt8
  validity : Duration
deriving DecidableEq

/-- Random values for one puzzle. -/
structure Chance where
  id : UInt64
  salt : Octets 16
deriving DecidableEq

/-- A place that tokens are written to, with room for so many bytes if it is bounded. -/
structure Sink where
  written : List UInt8
  room : Option Nat
deriving DecidableEq, Repr

/-- Writes all the bytes, or none and fails. -/
def Sink.write (sink : Sink) (bytes : List UInt8) : Except String Sink :=
  match sink.room with
  | none => .ok { sink with written := sink.written ++ bytes }
  | some room =>
    if bytes.length ≤ room then .ok ⟨sink.written ++ bytes, some (room - bytes.length)⟩
    else .error "closed"

namespace Issue

/-- Why no puzzle is issued. -/
inductive Fault
  | noSolutions
  | noValidity
  | beforeEpoch (now : Timestamp)
  | expiryOverflow
  | sinkFailed (reason : String)
deriving DecidableEq, Repr

def Fault.failure : Fault → Failure
  | .noSolutions => ⟨.invalidInput, "puzzle must require at least one solution"⟩
  | .noValidity => ⟨.invalidInput, "validity period must be positive"⟩
  | .beforeEpoch now => ⟨.invalidInput, "issue time " ++ now.text ++ " precedes the epoch"⟩
  | .expiryOverflow => ⟨.invalidInput, "validity period overflows expiry"⟩
  | .sinkFailed reason => ⟨.encoding, "failed to write puzzle: " ++ reason⟩

/-- The salt of a puzzle: random bytes mixed with bytes that tell the caller. -/
def mixSalt (random : Octets 16) (extra : List UInt8) : Octets 16 :=
  (Digest.sha256 (random.toList ++ extra)).slice 0 16

/-- The puzzle to issue at a point of time. -/
def build (params : PuzzleParams) (chance : Chance) (extra : List UInt8) (now : Timestamp) :
    Except Fault Puzzle := do
  if params.solutions = 0 then throw .noSolutions
  if params.validity.nanos = 0 then throw .noValidity
  if now.seconds < 0 then throw (.beforeEpoch now)
  let issuedAt := now.seconds.toNat
  let expiresAt := issuedAt + max 1 params.validity.seconds
  if expiresAt > 0xffffffffffffffff then throw .expiryOverflow
  return {
    id := chance.id
    owner := params.owner
    difficulty := params.difficulty
    solutions := params.solutions
    issuedAt := issuedAt.toUInt64
    expiresAt := expiresAt.toUInt64
    salt := mixSalt chance.salt extra }

/-- Issues a puzzle, with its token. -/
def issue (key : PuzzleKey) (params : PuzzleParams) (chance : Chance) (extra : List UInt8)
    (now : Timestamp) : Except Fault (Puzzle × String) :=
  (build params chance extra now).map fun p => (p, Token.encode p key)

/-- Issues a puzzle and writes its token; nothing is written unless the whole token is. -/
def issueTo (sink : Sink) (key : PuzzleKey) (params : PuzzleParams) (chance : Chance)
    (extra : List UInt8) (now : Timestamp) : Except Fault Puzzle × Sink :=
  match issue key params chance extra now with
  | .error fault => (.error fault, sink)
  | .ok (p, token) =>
    match sink.write (Text.octets token) with
    | .error reason => (.error (.sinkFailed reason), sink)
    | .ok sink => (.ok p, sink)

end Issue

end Tollgate
