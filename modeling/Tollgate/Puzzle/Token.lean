import Tollgate.Puzzle.Basic
import Tollgate.Puzzle.Key

/-!
Tokens: puzzles as bytes, authenticated and written in base64.

The body of a token has these bytes: version 1, id 8, owner 16, difficulty 1, solutions 1, issue time 8,
expiry 8, salt 16. Numbers are big-endian. The tag of the body follows it.
-/

namespace Tollgate.Token

def version : UInt8 := 1

def bodyLength : Nat := 59

def tagLength : Nat := 32

/-- Why a text or a body holds no puzzle. -/
inductive Fault
  | notBase64 (fault : Text.Base64.Fault)
  | wrongLength (expected actual : Nat)
  | unsupportedVersion (version : UInt8)
  | difficultyOutOfRange (bits : UInt8)
  | noSolutions
  | expiresBeforeIssue
deriving DecidableEq, Repr

def Fault.message : Fault → String
  | .notBase64 fault => "invalid base64: " ++ fault.message
  | .wrongLength expected actual => s!"invalid length: expected {expected} bytes, got {actual}"
  | .unsupportedVersion version => s!"unsupported puzzle version {version.toNat}"
  | .difficultyOutOfRange bits => s!"difficulty {bits.toNat} out of range"
  | .noSolutions => "puzzle requires zero solutions"
  | .expiresBeforeIssue => "expiry precedes issue time"

/-- The body of a puzzle's token. -/
def encodeBody (p : Puzzle) : Octets bodyLength where
  toList :=
    version :: (Octets.ofWord p.id).toList ++ p.owner.toList ++ [p.difficulty.bits, p.solutions] ++
      (Octets.ofWord p.issuedAt).toList ++ (Octets.ofWord p.expiresAt).toList ++ p.salt.toList
  length_toList := by simp [Octets.length_toList, bodyLength]

/-- The puzzle that a body of the right length holds. -/
def ofBody (body : Octets 59) : Except Fault Puzzle := do
  if body.get 0 ≠ version then throw (.unsupportedVersion (body.get 0))
  if body.get 25 > Level.highest then throw (.difficultyOutOfRange (body.get 25))
  if body.get 26 = 0 then throw .noSolutions
  let p : Puzzle := {
    id := (body.slice 1 8).toWord
    owner := body.slice 9 16
    difficulty := .ofBits (body.get 25)
    solutions := body.get 26
    issuedAt := (body.slice 27 8).toWord
    expiresAt := (body.slice 35 8).toWord
    salt := body.slice 43 16 }
  if p.expiresAt < p.issuedAt then throw .expiresBeforeIssue
  return p

/-- The puzzle that a body holds. -/
def decodeBody (bytes : List UInt8) : Except Fault Puzzle :=
  match Octets.ofList? bodyLength bytes with
  | some body => ofBody body
  | none => .error (.wrongLength bodyLength bytes.length)

/-- The token of a puzzle under a key. -/
def encode (p : Puzzle) (key : PuzzleKey) : String :=
  let body := (encodeBody p).toList
  Text.Base64.encode .urlSafe .forbidden (body ++ (key.sign body).toList)

/-- A token taken apart. Whether the tag is right has not been checked. -/
structure Decoded where
  puzzle : Puzzle
  body : Octets bodyLength
  tag : Octets tagLength
deriving DecidableEq

/-- Takes bytes of the right length apart. -/
def ofBytes (bytes : Octets 91) : Except Fault Decoded := do
  let body := bytes.slice 0 59
  let puzzle ← ofBody body
  return ⟨puzzle, body, bytes.slice 59 32⟩

/-- Takes a token apart, with blanks around it. -/
def decode (s : String) : Except Fault Decoded :=
  match Text.Base64.decodeText .urlSafe .forbidden (Text.trim s) with
  | .error fault => .error (.notBase64 fault)
  | .ok bytes =>
    match Octets.ofList? (bodyLength + tagLength) bytes with
    | some bytes => ofBytes bytes
    | none => .error (.wrongLength (bodyLength + tagLength) bytes.length)

end Tollgate.Token
