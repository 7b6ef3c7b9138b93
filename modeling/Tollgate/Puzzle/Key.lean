import Tollgate.Digest.Hmac
import Tollgate.Failure
import Tollgate.Text.Base64
import Tollgate.Text.Blank

/-!
Keys that authenticate puzzles.
-/

namespace Tollgate

/-- A key, as the tags it gives to messages. -/
structure PuzzleKey where
  sign : List UInt8 → Octets 32

namespace PuzzleKey

/-- The fewest bytes of a secret. -/
def shortestSecret : Nat := 32

/-- Why a secret makes no key. -/
inductive Fault
  | tooShort (length : Nat)
  | notBase64 (fault : Text.Base64.Fault)
deriving DecidableEq, Repr

def Fault.text : Fault → String
  | .tooShort length => s!"puzzle key must be at least {shortestSecret} bytes (got {length})"
  | .notBase64 fault => "puzzle key is not base64: " ++ fault.message

def Fault.failure (fault : Fault) : Failure :=
  ⟨.crypto, fault.text⟩

/-- The key of a secret. -/
def ofSecret (secret : List UInt8) : PuzzleKey :=
  ⟨Digest.hmac secret⟩

/-- The key of a secret that is long enough. -/
def ofBytes (secret : List UInt8) : Except Fault PuzzleKey :=
  if secret.length < shortestSecret then .error (.tooShort secret.length) else .ok (ofSecret secret)

/-- The text without the padding characters at its end. -/
def dropPadding (s : String) : String :=
  String.ofList (s.toList.reverse.dropWhile (· == '=')).reverse

/-- The bytes of a secret written in either alphabet, with or without padding. What is no text of the
URL-safe alphabet is judged by the standard one. -/
def secretOfText (s : String) : Except Text.Base64.Fault (List UInt8) :=
  let s := Text.trim s
  match Text.Base64.decodeText .urlSafe .forbidden (dropPadding s) with
  | .ok secret => .ok secret
  | .error _ => Text.Base64.decodeText .standard .required s

/-- The key of a secret written in base64. -/
def ofText (s : String) : Except Fault PuzzleKey :=
  match secretOfText s with
  | .ok secret => ofBytes secret
  | .error fault => .error (.notBase64 fault)

/-- Whether a tag is that of the message. -/
def verify (key : PuzzleKey) (message tag : List UInt8) : Bool :=
  (key.sign message).toList == tag

end PuzzleKey

end Tollgate
