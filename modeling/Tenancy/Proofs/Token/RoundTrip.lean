/-
Tokens, encoded and verified. A token is three parts in base 64 with points
between them, and no part holds a point, so cutting at the last two
points finds the parts again (`cutLast?_append`). The header and the
claims are ASCII and come out of base 64 as they went in. From there the
check of a token with these claims and any signature is known outright
(`check_dotted`): the signature is compared first, and behind it nothing
but the expiry is left to decide.

The keyed digest is never looked into: all that counts is whether two
secrets give the same one.
-/
import Tenancy.Proofs.Text.Base64
import Tenancy.Proofs.Token.Claims
import Tenancy.Token.Service

namespace Tenancy

open Json Text

-- ============================================================ header

namespace TokenHeader

/-- The header of the tokens that are issued, as a value. -/
def json : Json := .obj [("typ", .str "JWT"), ("alg", .str "HS256")]

/-- The header as members of an object. -/
def members : List MemberText :=
  [("typ", (quote "JWT").toList), ("alg", (quote "HS256").toList)]

theorem text_eq_compact : text = compact json := by
  have hcommas (a b : String) : ",".intercalate [a, b] = a ++ "," ++ b := rfl
  apply String.toList_injective
  simp (disch := decide)
    [text, json, compact, compactMembers, hcommas, toList_quote]

theorem toList_text : text.toList = objectText members := by
  simp (disch := decide) [text, objectText, membersText, members, toList_quote]

theorem collects_shape :
    Collects shape.fields members shape.start (some .hs256) := by
  have htyp rest : readNullable readStr ((quote "JWT").toList ++ rest)
      = .ok (some "JWT", rest) :=
    readNullable_quote (by decide) (readStr_quote (by decide))
  have halg rest :
      readCase TokenAlgorithm.ofName? ((quote "HS256").toList ++ rest)
      = .ok (.hs256, rest) :=
    readCase_quote (by decide) (by decide)
  refine .field (by decide) rfl (fun rest _ => Field.read_of (htyp rest)) ?_
  exact .field (by decide) rfl (fun rest _ => Field.read_of (halg rest)) .nil

/-- The header names the algorithm. -/
theorem read_text : readWhole? shape.read text.toList = some .hs256 := by
  rw [toList_text, readWhole?_object collects_shape (by decide)]
  rfl

end TokenHeader

-- ============================================================= parts

namespace TokenService

variable {service : TokenService} {before behind : List Char} {c : Claims}

/-- A text is cut at a point behind which there is none. -/
theorem cutLast?_append (h : '.' ∉ behind) :
    cutLast? (before ++ '.' :: behind) = some (before, behind) := by
  have hnone : ∀ c ∈ behind.reverse, decide (c ≠ '.') = true := by
    intro c hc
    refine decide_eq_true ?_
    rintro rfl
    exact h (List.mem_reverse.1 hc)
  have hreverse : (before ++ '.' :: behind).reverse
      = behind.reverse ++ '.' :: before.reverse := by
    simp
  unfold cutLast?
  rw [hreverse, List.dropWhile_append_of_pos hnone,
    List.takeWhile_append_of_pos hnone]
  simp

/-- A text of ASCII comes out of its part as it is. -/
theorem decodePart_encodeText {s : String} (h : Ascii s.toList) :
    decodePart (encodeText s) = .ok s.toList := by
  rw [decodePart, encodeText, Base64.decode?_encode Base64.legible_url,
    ← octets_of_ascii h]
  rfl

/-- Parts in base 64, with points between them. -/
def dotted (parts : List (List UInt8)) : String :=
  ".".intercalate
    (parts.map fun bytes => String.ofList (Base64.url.encode bytes))

/-- The two parts of a token that are signed. -/
def signed (c : Claims) : List (List UInt8) :=
  [utf8 (compact TokenHeader.json), utf8 (compact c.json)]

/-- The keyed digest of the signed parts under a service's secret. -/
def mac (service : TokenService) (c : Claims) : List UInt8 :=
  Crypto.Hmac.sha256 (utf8 service.secret) (utf8 (dotted (signed c)))

theorem toList_dotted_signed (c : Claims) :
    (dotted (signed c)).toList
      = encodeText TokenHeader.text ++ '.' :: encodeText c.text := by
  have hpoint (a b : String) : ".".intercalate [a, b] = a ++ "." ++ b := rfl
  simp [dotted, signed, hpoint, encodeText, TokenHeader.text_eq_compact,
    c.text_eq_compact]

theorem toList_dotted_append (c : Claims) (mac : List UInt8) :
    (dotted (signed c ++ [mac])).toList
      = (dotted (signed c)).toList ++ '.' :: Base64.url.encode mac := by
  have htwo (a b : String) : ".".intercalate [a, b] = a ++ "." ++ b := rfl
  have hthree (a b c : String) :
      ".".intercalate [a, b, c] = a ++ "." ++ b ++ "." ++ c := rfl
  simp [dotted, signed, htwo, hthree]

theorem signature_signed (service : TokenService) (c : Claims) :
    service.signature (dotted (signed c)).toList
      = Base64.url.encode (service.mac c) := rfl

/-- A token is its two signed parts and their digest. -/
theorem encode_eq (h : service.secret ≠ "") (c : Claims) :
    service.encode c = .ok (dotted (signed c ++ [service.mac c])) := by
  unfold encode
  simp only [h, if_false]
  rw [← toList_dotted_signed, signature_signed, ← toList_dotted_append,
    String.ofList_toList]

-- ========================================================== checking

/-- Of a token's claims, only the expiry can be refused. -/
theorem accept_encodeText (now : Int) (hissued : IsInt64 c.issuedAt)
    (hexpires : IsInt64 c.expires) :
    accept now (encodeText c.text)
      = if c.expires < 0 then .error .missingExpiry
        else if c.expires < now then .error .expired
        else .ok c := by
  have hclaims : readPart Claims.shape.read c.text.toList = .ok c := by
    rw [readPart, Claims.read_text hissued hexpires]
  have hconditions :
      readPart Claims.conditions.read c.text.toList = .ok c.stated := by
    rw [readPart, Claims.read_conditions_text hexpires]
  unfold accept
  rw [decodePart_encodeText c.ascii_text]
  simp only [bind, Except.bind, hclaims, hconditions, Claims.stated]
  by_cases hnegative : c.expires < 0
  · rw [if_neg (by omega), if_pos hnegative]
    rfl
  · rw [if_pos (by omega), if_neg hnegative]
    by_cases hpast : c.expires < now
    · simp only [hpast, if_true]
      rfl
    · simp only [hpast, if_false]
      rfl

/-- With these claims and any signature, the signature decides first. -/
theorem check_dotted (service : TokenService) (now : Int) (c : Claims)
    (mac : List UInt8) :
    service.check now (dotted (signed c ++ [mac])).toList
      = if mac = service.mac c then accept now (encodeText c.text)
        else .error .signature := by
  have hparts : cutLast? (dotted (signed c ++ [mac])).toList
      = some ((dotted (signed c)).toList, Base64.url.encode mac) := by
    rw [toList_dotted_append, cutLast?_append (Base64.point_notMem_encode mac)]
  have hsigned : cutLast? (dotted (signed c)).toList
      = some (encodeText TokenHeader.text, encodeText c.text) := by
    rw [toList_dotted_signed]
    exact cutLast?_append (Base64.point_notMem_encode (utf8 c.text))
  have hheader :
      decodePart (encodeText TokenHeader.text) = .ok TokenHeader.text.toList :=
    decodePart_encodeText (by decide)
  have halgorithm : readPart TokenHeader.shape.read TokenHeader.text.toList
      = .ok .hs256 := by
    rw [readPart, TokenHeader.read_text]
  have hcompare : Base64.url.encode mac ≠ Base64.url.encode (service.mac c)
      ↔ ¬mac = service.mac c :=
    not_congr (Base64.encode_injective Base64.legible_url).eq_iff
  unfold check
  simp only [hparts, hsigned, hheader, halgorithm, bind, Except.bind,
    signature_signed, hcompare]
  by_cases hmac : mac = service.mac c
  · simp only [hmac, ne_eq, not_true_eq_false, if_false, if_true]
  · simp only [hmac, ne_eq, not_true_eq_false, not_false_eq_true, if_false,
      if_true]
    rfl

/-- Verifying is checking, under a secret. -/
theorem verify_dotted (h : service.secret ≠ "") (now : Int) (c : Claims)
    (mac : List UInt8) :
    service.verify now (dotted (signed c ++ [mac]))
      = (if mac = service.mac c then accept now (encodeText c.text)
        else .error .signature).mapError .invalid := by
  rw [verify, if_neg h, check_dotted]
  cases (if mac = service.mac c then accept now (encodeText c.text)
    else .error .signature) <;> rfl

-- ========================================================== round trip

/-- Verification undoes encoding. Under a secret, the token of any claims is
the header and the claims as JSON and their keyed digest, each in base 64,
with points between them. At any instant of the Unix time up to the
expiry, the service that issued it finds in it exactly the claims. Behind
the expiry the token is invalid, and an expiry before the epoch is as good
as none. It is invalid, too, for every other service whose digest of the
first two parts is a different one. Without a secret, no token is made and
none is accepted. -/
theorem verify_encode (service : TokenService) (c : Claims) (now : Int)
    (hissued : IsInt64 c.issuedAt) (hexpires : IsInt64 c.expires)
    (hnow : 0 ≤ now) : (service.secret ≠ "" →
      ∃ token, service.encode c = .ok token
        ∧ token
          = dotted
            [utf8 (compact TokenHeader.json), utf8 (compact c.json),
              service.mac c]
        ∧ (now ≤ c.expires → service.verify now token = .ok c)
        ∧ (c.expires < now → service.verify now token
            = .error
              (.invalid (if c.expires < 0 then .missingExpiry else .expired)))
        ∧ ∀ other : TokenService, other.secret ≠ "" →
          other.mac c ≠ service.mac c →
            other.verify now token = .error (.invalid .signature))
      ∧ (service.secret = "" →
        service.encode c = .error .noSecret
          ∧ ∀ token, service.verify now token = .error .noSecret) := by
  have haccept := accept_encodeText now hissued hexpires
  constructor
  · intro hsecret
    have hverify := verify_dotted hsecret now c (service.mac c)
    rw [if_pos rfl, haccept] at hverify
    refine ⟨_, encode_eq hsecret c, rfl, ?_, ?_, ?_⟩
    · intro hgood
      rw [hverify, if_neg (by omega), if_neg (by omega)]
      rfl
    · intro hpast
      rw [hverify]
      by_cases hnegative : c.expires < 0
      · rw [if_pos hnegative, if_pos hnegative]
        rfl
      · rw [if_neg hnegative, if_neg hnegative, if_pos hpast]
        rfl
    · intro other hother hmac
      rw [verify_dotted hother, if_neg hmac.symm]
      rfl
  · intro hempty
    refine ⟨?_, fun token => ?_⟩
    · rw [encode, if_pos hempty]
    · rw [verify, if_pos hempty]

def smallService : TokenService := ⟨"secret", 1⟩

def smallClaims : Claims := ⟨.ofNat 7, -0x8000000000000000, 3600⟩

/-- A token that is good in the second in which it expires, and not in the
next one, and good nowhere else. -/
theorem smallService_verify_encode :
    ∃ token, smallService.encode smallClaims = .ok token
      ∧ smallService.verify 3600 token = .ok smallClaims
      ∧ smallService.verify 3601 token = .error (.invalid .expired)
      ∧ TokenService.verify ⟨"other-secret", 1⟩ 3600 token
        = .error (.invalid .signature)
      ∧ TokenService.verify ⟨"", 1⟩ 3600 token = .error .noSecret := by
  have hmac : TokenService.mac ⟨"other-secret", 1⟩ smallClaims
      ≠ smallService.mac smallClaims := by
    decide +kernel
  obtain ⟨token, htoken, -, hgood, -, hforeign⟩ :=
    (verify_encode smallService smallClaims 3600 (by decide) (by decide)
      (by decide)).1 (by decide)
  obtain ⟨later, hlater, -, -, hpast, -⟩ :=
    (verify_encode smallService smallClaims 3601 (by decide) (by decide)
      (by decide)).1 (by decide)
  obtain rfl : token = later := Except.ok.inj (htoken.symm.trans hlater)
  have hempty :=
    (verify_encode ⟨"", 1⟩ smallClaims 3600 (by decide) (by decide)
      (by decide)).2 rfl
  exact ⟨token, htoken, hgood (by decide), hpast (by decide),
    hforeign _ (by decide) hmac,
    hempty.2 token⟩

end TokenService

end Tenancy
