/-
Requests, and the content type that a JSON body must have.

The target of a request is a path, or a whole address of which only the
path and the query count: what stands before them names the service that
was reached anyhow. A target that is an authority alone, or a star, has
no path, which is less than a path of one slash.

A body is JSON if its type is `application`, with `json` for its subtype
or behind the last plus sign of it, in any case and with any parameters
that are well formed.
-/
import Tenancy.Http.Headers

namespace Tenancy.Http

structure Request where
  method : String
  /-- The path, with the query behind a question mark; a scheme and an
  authority may stand before it. -/
  target : String
  headers : Headers
  body : String
deriving DecidableEq

namespace Request

/-- A well-formed target from its path on. -/
def fromPath (target : List Char) : List Char :=
  match target with
  | '/' :: _ => target
  | _ =>
    match target.dropWhile (· ≠ ':') with
    | ':' :: '/' :: '/' :: rest =>
      rest.dropWhile fun c => c ≠ '/' && c ≠ '?' && c ≠ '#'
    | _ => []

/-- The path and the query of the target, which a number sign ends. -/
def resource (r : Request) : List Char :=
  (fromPath r.target.toList).takeWhile (· ≠ '#')

/-- The path, still percent-encoded; empty if there is none. -/
def path (r : Request) : String :=
  String.ofList (r.resource.takeWhile (· ≠ '?'))

/-- What stands behind the question mark, if there is one. -/
def query (r : Request) : Option String :=
  match r.resource.dropWhile (· ≠ '?') with
  | [] => none
  | _ :: query => some (String.ofList query)

end Request

-- ======================================================= media types

/-- A character of a token. -/
def isToken (c : Char) : Bool :=
  c.isAlphanum || "!#$%&'*+-.^_`|~".toList.contains c

/-- What follows a quoted value behind its opening quote. The value is not
empty and ends at the next quote behind its first character; there are no
escapes in it. -/
def afterQuoted? : (isFirst : Bool) → List Char → Option (List Char)
  | false, '"' :: rest => some rest
  | _, c :: rest =>
    if isHeaderText c && c ≠ '\t' then afterQuoted? false rest else none
  | _, [] => none

/-- Are the parameters behind a semicolon well formed? The fuel bounds their
number. -/
def paramsAreValid : (fuel : Nat) → List Char → Bool
  | 0, _ => false
  | fuel + 1, cs =>
    let cs := cs.dropWhile (· = ' ')
    if cs.isEmpty then true
    else
      let name := cs.takeWhile isToken
      match cs.dropWhile isToken with
      | '=' :: '"' :: rest =>
        match afterQuoted? true rest with
        | none => false
        | some rest =>
          match rest.dropWhile (· = ' ') with
          | [] => name ≠ []
          | c :: rest => name ≠ [] && c = ';' && paramsAreValid fuel rest
      | '=' :: rest =>
        match rest.dropWhile isToken with
        | [] => name ≠ []
        | c :: behind =>
          name ≠ [] && c = ';' && rest.head? ≠ some ';'
            && paramsAreValid fuel behind
      | _ => false

/-- Does a content type say that the body is JSON? -/
def isJsonType (contentType : String) : Bool :=
  let cs := (Text.lowercase contentType).toList
  let type := cs.takeWhile fun c => isToken c
  match cs.dropWhile fun c => isToken c with
  | '/' :: rest =>
    let subtype := rest.takeWhile isToken
    let isValid := match rest.dropWhile isToken with
      | [] => true
      | c :: params => c = ';' && paramsAreValid (params.length + 1) params
    let pieces := Text.pieces (· == '+') (subtype.drop 1)
    let main := subtype.take (subtype.length - (pieces.getLastD []).length - 1)
    type == "application".toList && subtype ≠ [] && isValid
      && (if pieces.length = 1 then subtype == "json".toList
        else main == "json".toList || pieces.getLast? == some "json".toList)
  | _ => false

/-- Does a request say that its body is JSON? -/
def Request.hasJson (r : Request) : Bool :=
  (r.headers.text? "content-type").any isJsonType

end Tenancy.Http
