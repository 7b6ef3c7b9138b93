import Tollgate.Puzzle.Token

/-!
Submissions: the nonces that solve a puzzle, and the puzzle's token, with a point between them.
-/

namespace Tollgate

/-- What a client submits. Whether the tag is right has not been checked. -/
structure Submission where
  puzzle : Puzzle
  body : Octets Token.bodyLength
  tag : Octets Token.tagLength
  /-- One nonce for each index. -/
  nonces : List UInt64
deriving DecidableEq

namespace Submission

/-- The longest submission in bytes. -/
def longest : Nat := 4096

/-- Why bytes are no submission. -/
inductive Fault
  | tooLarge (length : Nat)
  | notUtf8
  | missingSeparator
  | proofNotBase64
  | proofLength (expected actual : Nat)
  | token (fault : Token.Fault)
deriving DecidableEq, Repr

def Fault.message : Fault → String
  | .tooLarge length => s!"payload is {length} bytes, above the {longest} byte limit"
  | .notUtf8 => "payload is not UTF-8"
  | .missingSeparator => "payload has no proof separator"
  | .proofNotBase64 => "proof is not valid base64"
  | .proofLength expected actual =>
    s!"puzzle requires {expected} proofs, payload carries {actual} bytes of proof"
  | .token fault => "puzzle token: " ++ fault.message

def separator : Char := '.'

/-- The parts of a text before and after its first separator. -/
def splitProof? (s : String) : Option (String × String) :=
  let cs := s.toList
  match cs.dropWhile (· ≠ separator) with
  | [] => none
  | _ :: token => some (String.ofList (cs.takeWhile (· ≠ separator)), String.ofList token)

/-- The bytes of nonces, eight to each. -/
def encodeNonces (nonces : List UInt64) : List UInt8 :=
  nonces.flatMap fun nonce => (Octets.ofWord nonce).toList

/-- The first `count` nonces in some bytes. -/
def decodeNonces : Nat → List UInt8 → List UInt64
  | 0, _ => []
  | count + 1, bytes =>
    (Octets.ofListPadded 8 bytes).toWord :: decodeNonces count (bytes.drop 8)

/-- Reads the two parts of a submission; the token is looked at first. -/
def ofParts (proof token : String) : Except Fault Submission := do
  let decoded ← match Token.decode token with
    | .ok decoded => pure decoded
    | .error fault => throw (.token fault)
  let bytes ← match Text.Base64.decodeText .urlSafe .forbidden proof with
    | .ok bytes => pure bytes
    | .error _ => throw .proofNotBase64
  let expected := decoded.puzzle.solutions.toNat
  if bytes.length ≠ expected * 8 then throw (.proofLength expected bytes.length)
  return ⟨decoded.puzzle, decoded.body, decoded.tag, decodeNonces expected bytes⟩

/-- Reads a submission from bytes of any origin. -/
def parse (bytes : List UInt8) : Except Fault Submission :=
  if bytes.length > longest then .error (.tooLarge bytes.length)
  else
    match Text.ofOctets? bytes with
    | none => .error .notUtf8
    | some s =>
      match splitProof? (Text.trim s) with
      | none => .error .missingSeparator
      | some (proof, token) => ofParts proof token

/-- The submission of some nonces for a token. -/
def encode (token : String) (nonces : List UInt64) : String :=
  Text.Base64.encode .urlSafe .forbidden (encodeNonces nonces) ++ String.singleton separator ++
    Text.trim token

end Submission

end Tollgate
