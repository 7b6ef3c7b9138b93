import Tollgate.Octets
import Tollgate.Digest.Sha256

/-!
Keyed digests: SHA-256 of byte strings, and HMAC over it.
-/

namespace Tollgate.Digest

/-- The SHA-256 digest of a byte string. -/
def sha256 (message : List UInt8) : Octets 32 :=
  Octets.ofListPadded 32 (Sha256.digest ⟨message.toArray⟩).data.toList

/-- The block that stands for a secret: longer secrets are digested, shorter ones filled up. -/
def hmacBlock (secret : List UInt8) : Octets 64 :=
  Octets.ofListPadded 64 (if secret.length ≤ 64 then secret else (sha256 secret).toList)

/-- HMAC-SHA256 of a message under a secret. -/
def hmac (secret message : List UInt8) : Octets 32 :=
  let block := (hmacBlock secret).toList
  let inner := sha256 (block.map (· ^^^ 0x36) ++ message)
  sha256 (block.map (· ^^^ 0x5c) ++ inner.toList)

end Tollgate.Digest
