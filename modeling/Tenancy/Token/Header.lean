/-
The header of a token. All that is used of it is the algorithm; the
other fields that a header may have are read, so that a header in which
they are spoilt is no header.
-/
import Tenancy.Json.Shape

namespace Tenancy

open Json

/-- The algorithms that a header can name. -/
inductive TokenAlgorithm where
  | hs256 | hs384 | hs512
  | es256 | es384
  | rs256 | rs384 | rs512
  | ps256 | ps384 | ps512
  | edDSA
deriving DecidableEq

namespace TokenAlgorithm

def name : TokenAlgorithm → String
  | .hs256 => "HS256"
  | .hs384 => "HS384"
  | .hs512 => "HS512"
  | .es256 => "ES256"
  | .es384 => "ES384"
  | .rs256 => "RS256"
  | .rs384 => "RS384"
  | .rs512 => "RS512"
  | .ps256 => "PS256"
  | .ps384 => "PS384"
  | .ps512 => "PS512"
  | .edDSA => "EdDSA"

def all : List TokenAlgorithm :=
  [.hs256, .hs384, .hs512, .es256, .es384, .rs256, .rs384, .rs512, .ps256,
    .ps384, .ps512, .edDSA]

def ofName? (text : String) : Option TokenAlgorithm :=
  all.find? fun algorithm => algorithm.name == text

end TokenAlgorithm

namespace TokenHeader

/-- The header of the tokens that are issued. -/
def text : String := "\x7b\"typ\":\"JWT\",\"alg\":\"HS256\"\x7d"

-- ============================================================== keys

/-- A type of keys, with the members that such a key is made of. -/
structure KeyType where
  name : String
  /-- Does a curve belong to the key? -/
  hasCurve : Bool
  /-- The members that are texts. -/
  parts : List String

/-- The types of keys. -/
def keyTypes : List KeyType := [
  ⟨"EC", true, ["x", "y"]⟩,
  ⟨"RSA", false, ["n", "e"]⟩,
  ⟨"oct", false, ["k"]⟩,
  ⟨"OKP", true, ["x"]⟩]

def curves : List String := ["P-256", "P-384", "P-521", "Ed25519"]

/-- The algorithms that a key can be for. -/
def keyAlgorithms : List String :=
  TokenAlgorithm.all.map TokenAlgorithm.name
    ++ ["RSA1_5", "RSA-OAEP", "RSA-OAEP-256"]

/-- The values of all members of a name. -/
def valuesOf (name : String) (members : List (String × Json)) : List Json :=
  (members.filter fun m => m.1 == name).map Prod.snd

/-- Is there one member of a name, whose value passes a test? -/
def hasOne (name : String) (test : Json → Bool)
    (members : List (String × Json)) : Bool :=
  match valuesOf name members with
  | [v] => test v
  | _ => false

/-- Is there at most one member of a name, whose value is null or passes a
test? -/
def hasOptional (name : String) (test : Json → Bool)
    (members : List (String × Json)) : Bool :=
  match valuesOf name members with
  | [] => true
  | [v] => v.isNull || test v
  | _ => false

def isText (v : Json) : Bool := v.str?.isSome

def isTexts : Json → Bool
  | .arr items => items.all isText
  | _ => false

/-- One of some names, as a text or as the name of the only member of an
object; the member's value has to be a void one. -/
def isCase (names : List String) (isVoid : Json → Bool) : Json → Bool
  | .str s => names.contains s
  | .obj [(s, v)] => names.contains s && isVoid v
  | _ => false

/-- Null, or an object without members. -/
def isNullOrEmpty : Json → Bool
  | .null | .obj [] => true
  | _ => false

/-- Do the members make a key of some type? -/
def isOfType (type : KeyType) (members : List (String × Json)) : Bool :=
  hasOne "kty" (isCase [type.name] Json.isNull) members
    && (!type.hasCurve || hasOne "crv" (isCase curves Json.isNull) members)
    && type.parts.all fun part => hasOne part isText members

/-- Is a value, as it is written, a key that a header may carry? -/
def isKey : Json → Bool
  | .obj members =>
    ["use", "kid", "x5u", "x5t", "x5t#S256"].all
      (fun name => hasOptional name isText members)
      && hasOptional "key_ops" isTexts members
      && hasOptional "x5c" isTexts members
      && hasOptional "alg" (isCase keyAlgorithms isNullOrEmpty) members
      && keyTypes.any fun type => isOfType type members
  | _ => false

def readKey : Reader Unit := fun cs => do
  let (v, rest) ← required (scanTree (maxDepth - 1)) cs
  if isKey v then return ((), rest) else .error .mismatched

-- ============================================================= fields

/-- A field that is read and not used. -/
def unused {α : Type} (name : String) (read : Reader α) :
    Json.Field (Option TokenAlgorithm) :=
  .of name (readNullable read) fun _ algorithm => algorithm

/-- The algorithm that a header names. -/
def shape : Shape (Option TokenAlgorithm) TokenAlgorithm where
  start := none
  fields := [
    unused "typ" readStr,
    .of "alg" (readCase TokenAlgorithm.ofName?) fun algorithm _ =>
      some algorithm,
    unused "cty" readStr,
    unused "jku" readStr,
    unused "jwk" readKey,
    unused "kid" readStr,
    unused "x5u" readStr,
    unused "x5c" (readList readStr),
    unused "x5t" readStr,
    unused "x5t#S256" readStr]
  finish := id

end TokenHeader

end Tenancy
