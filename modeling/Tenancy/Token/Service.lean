/-
Bearer tokens: header and claims in base 64, a point between them, and
behind another point the signature of the two under the service's
secret. A token is cut at its last two points; its header is read before
its signature is compared, and its claims only behind that.

Times are whole seconds. A token is good up to and including the second
in which it expires. Its expiry is computed by the calendar, which panics
at a span that is too long for it and beyond its last instant.
-/
import Tenancy.Crypto.Hmac
import Tenancy.Panic
import Tenancy.Text.Base64
import Tenancy.Text.Utf8
import Tenancy.Token.Claims
import Tenancy.Token.Header

namespace Tenancy

open Text

/-- What is wrong with a token. -/
inductive TokenFault where
  /-- There are less than three parts. -/
  | parts
  | base64
  | json
  | algorithm
  | signature
  | missingExpiry
  | expired
  | audience
deriving DecidableEq

def TokenFault.message : TokenFault → String
  | .parts => "InvalidToken"
  | .base64 => "Base64 error"
  | .json => "JSON error"
  | .algorithm => "InvalidAlgorithm"
  | .signature => "InvalidSignature"
  | .missingExpiry => "Missing required claim: exp"
  | .expired => "ExpiredSignature"
  | .audience => "InvalidAudience"

/-- Why a token was not made or not accepted. -/
inductive TokenError where
  | noSecret
  | invalid (fault : TokenFault)
deriving DecidableEq

def TokenError.message : TokenError → String
  | .noSecret => "JWT secret not configured"
  | .invalid fault => "Invalid JWT: " ++ fault.message

/-- What issues tokens and accepts them. -/
structure TokenService where
  secret : String
  /-- How many hours a token is good for. -/
  expiryHours : Nat
deriving DecidableEq

namespace TokenService

/-- A text in base 64. -/
def encodeText (s : String) : List Char := Base64.url.encode (utf8 s)

/-- The signature of the first two parts of a token. -/
def signature (service : TokenService) (message : List Char) : List Char :=
  Base64.url.encode
    (Crypto.Hmac.sha256 (utf8 service.secret) (message.flatMap utf8OfChar))

-- ============================================================ issuing

/-- The token that makes some claims. -/
def encode (service : TokenService) (claims : Claims) :
    Except TokenError String :=
  if service.secret = "" then .error .noSecret
  else
    let message := encodeText TokenHeader.text ++ '.' :: encodeText claims.text
    .ok (String.ofList (message ++ '.' :: service.signature message))

/-- A number taken as one of 64 signed bits. -/
def toInt64 (n : Int) : Int := Int.bmod n 0x10000000000000000

/-- The lifetime as it is reported, in seconds. -/
def expiresIn (service : TokenService) : Int :=
  toInt64 (toInt64 service.expiryHours * 3600)

/-- The longest span of time: its milliseconds are a number of 64 signed
bits. -/
def longestSpan : Int := 9223372036854775

/-- A span of so many hours, in seconds; one that is too long panics. -/
def span (hours : Int) : MayPanic Int :=
  let seconds := hours * 3600
  if -longestSpan ≤ seconds ∧ seconds ≤ longestSpan then .returns seconds
  else .panics

/-- The first and the last second of the calendar. -/
def calendar : Int × Int := (-8334601228800, 8210266876799)

/-- The instant a span after another; one beyond the calendar panics. -/
def later (now seconds : Int) : MayPanic Int :=
  let instant := now + seconds
  if calendar.1 ≤ instant ∧ instant ≤ calendar.2 then .returns instant
  else .panics

/-- The token for a user, issued now. It is irreducible because deciding
its bounds by computation would count through them. -/
@[irreducible]
def issue (service : TokenService) (now : Int) (user : Uuid) :
    MayPanic (Except TokenError String) := do
  let seconds ← span (toInt64 service.expiryHours)
  let expires ← later now seconds
  return service.encode ⟨user, now, expires⟩

-- ========================================================== accepting

/-- A text cut at its last point, the point dropped. -/
def cutLast? (cs : List Char) : Option (List Char × List Char) :=
  let behind := (cs.reverse.takeWhile (· ≠ '.')).reverse
  match cs.reverse.dropWhile (· ≠ '.') with
  | [] => none
  | _ :: before => some (before.reverse, behind)

/-- The octets that base 64 text spells. -/
def decodePart (cs : List Char) : Except TokenFault (List Char) :=
  match Base64.url.decode? cs with
  | none => .error .base64
  | some bytes => .ok (bytes.map charOfByte)

/-- What the octets of a part hold. -/
def readPart {α : Type} (read : Json.Reader α) (part : List Char) :
    Except TokenFault α :=
  match Json.readWhole? read part with
  | some a => .ok a
  | none => .error .json

/-- The claims of a token whose header and signature were found good. -/
def accept (now : Int) (part : List Char) : Except TokenFault Claims := do
  let octets ← decodePart part
  let claims ← readPart Claims.shape.read octets
  let conditions ← readPart Claims.conditions.read octets
  let some expires := conditions.expires | throw .missingExpiry
  if expires < now then throw .expired
  if conditions.hasAudience then throw .audience
  return claims

/-- The claims of a token that this service issued and that is good now. -/
def check (service : TokenService) (now : Int) (token : List Char) :
    Except TokenFault Claims := do
  let some (message, signature) := cutLast? token | throw .parts
  let some (header, claims) := cutLast? message | throw .parts
  let algorithm ← readPart TokenHeader.shape.read (← decodePart header)
  if algorithm ≠ .hs256 then throw .algorithm
  if signature ≠ service.signature message then throw .signature
  accept now claims

def verify (service : TokenService) (now : Int) (token : String) :
    Except TokenError Claims :=
  if service.secret = "" then .error .noSecret
  else match service.check now token.toList with
    | .ok claims => .ok claims
    | .error fault => .error (.invalid fault)

end TokenService

end Tenancy
