/-
Keyed digests, as RFC 2104 defines them, over SHA-256.
-/
import Tenancy.Crypto.Sha256

namespace Tenancy.Crypto.Hmac

/-- A key as one block: digested if longer, filled with zeros if shorter. -/
def blockKey (key : List UInt8) : List UInt8 :=
  let key := if key.length > 64 then Sha256.digest key else key
  key ++ List.replicate (64 - key.length) 0

/-- The 32 bytes of the keyed digest. -/
def sha256 (key message : List UInt8) : List UInt8 :=
  let key := blockKey key
  Sha256.digest
    (key.map (· ^^^ 0x5c) ++ Sha256.digest (key.map (· ^^^ 0x36) ++ message))

end Tenancy.Crypto.Hmac
