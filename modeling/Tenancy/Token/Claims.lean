/-
What a token claims: who it was issued to, when, and until when it is
good. Nothing else is trusted — roles and memberships are read from the
directory for every request — so other claims are passed over.

A second reading tells whether the token is good here and now: it looks
at the registered claims, where an audience makes a token one for
somebody else and an expiry that is no proper instant is as good as none.
It forgives faults in the values of these claims, and goes on from where
such a fault was found, so the two readings need not agree on where the
claims end; each of them has to come to an end by itself.
-/
import Tenancy.Json.Printer
import Tenancy.Json.Scalars
import Tenancy.Json.Shape

namespace Tenancy

open Json

/-- The claims of a token; instants are seconds of the Unix time. -/
structure Claims where
  subject : Uuid
  issuedAt : Int
  expires : Int
deriving DecidableEq

namespace Claims

/-- A whole number of 64 signed bits. -/
def readInt64 : Reader Int :=
  readIntWithin (-0x8000000000000000) 0x8000000000000000

/-- The claims as a token holds them. -/
def text (c : Claims) : String :=
  "\x7b\"sub\":" ++ Json.compact (.uuid c.subject) ++ ",\"iat\":"
    ++ toString c.issuedAt ++ ",\"exp\":"
    ++ toString c.expires ++ "\x7d"

/-- Claims that are being collected. -/
structure Draft where
  subject : Option Uuid
  issuedAt : Option Int
  expires : Option Int

/-- The claims that every token must make. -/
def shape : Shape Draft Claims where
  start := ⟨none, none, none⟩
  fields := [
    .of "sub" (readSpelled Uuid.ofString?) fun id d =>
      { d with subject := some id },
    .of "iat" readInt64 fun n d => { d with issuedAt := some n },
    .of "exp" readInt64 fun n d => { d with expires := some n }]
  finish := fun d => do return ⟨← d.subject, ← d.issuedAt, ← d.expires⟩

-- ====================================================== further claims

/-- What decides on a token apart from its proper claims. -/
structure Conditions where
  /-- The expiry, if it is a number of seconds and not negative. -/
  expires : Option Int
  /-- Is there an audience, a text or a list of texts? -/
  hasAudience : Bool

/-- A number of seconds, which is not negative. Arrays and objects are not
looked into: of them only the empty ones are taken. -/
def scanInstant : Scan Int := fun cs =>
  match skipGaps cs with
  | '[' :: rest => (none, (closeArray rest).2)
  | '\x7b' :: rest => (none, (closeObject rest).2)
  | rest =>
    match scanValue 0 rest with
    | (some (.int n), rest) => (if 0 ≤ n then some n else none, rest)
    | (_, rest) => (none, rest)

/-- Any value inside of the claims. -/
def scanClaim : Scan Json := scanValue (maxDepth - 1)

/-- Is a value an audience, one text or a list of texts? -/
def isAudience : Json → Bool
  | .str _ => true
  | .arr items => items.all fun item => item.str?.isSome
  | _ => false

/-- The conditions of a token. What is no proper value is put up with: it
counts as none, and so does one in which there is a fault. -/
def conditions : Shape Conditions Conditions where
  start := ⟨none, false⟩
  fields := [
    .of "exp" (forgiven scanInstant) fun seconds c =>
      { c with expires := seconds },
    .of "nbf" (forgiven scanInstant) fun _ c => c,
    .of "sub" (forgiven (scanValue 0)) fun _ c => c,
    .of "iss" (forgiven scanClaim) fun _ c => c,
    .of "aud" (forgiven scanClaim) fun v c =>
      { c with hasAudience := v.any isAudience }]
  finish := some

end Claims

end Tenancy
