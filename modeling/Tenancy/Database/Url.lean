/-
Database addresses. An address is a URL with one of two schemes, and it
must name a database: a path of slashes only would silently mean the
user's own.

The URL is read as the WHATWG standard reads those whose scheme is none
of its special ones. Blanks and control characters around it and tabs
and line ends inside it do not count. Behind two slashes come an
authority and then the path; behind one, the path; otherwise all is
path. In a path that begins with a slash, dot segments are resolved.
-/
import Tenancy.Database.Error
import Tenancy.Text.Decimal
import Tenancy.Text.Hex
import Tenancy.Text.Split

namespace Tenancy.DatabaseUrl

open Text

-- ============================================================== text

/-- A control character or a space. -/
def isEdge (c : Char) : Bool := c.toNat ≤ 0x20

/-- The characters that count. -/
def significant (s : String) : List Char :=
  let cs := ((s.toList.dropWhile isEdge).reverse.dropWhile isEdge).reverse
  cs.filter fun c => c ≠ '\t' && c ≠ '\n' && c ≠ '\r'

/-- A scheme in small letters, and what stands behind its colon. -/
def scheme? (cs : List Char) : Option (String × List Char) :=
  let isPart (c : Char) := c.isAlphanum || c = '+' || c = '-' || c = '.'
  match cs with
  | [] => none
  | first :: _ =>
    match cs.dropWhile isPart with
    | ':' :: rest =>
      if first.isAlpha then
        some (String.ofList ((cs.takeWhile isPart).map lowerAscii), rest)
      else none
    | _ => none

/-- Does an authority or a path end here? -/
def isQuestionOrHash (c : Char) : Bool := c = '?' || c = '#'

-- ============================================================== hosts

/-- A number of 0 … 255 without leading zeros. -/
def isByte (cs : List Char) : Bool :=
  (digitsValue? cs).any (· ≤ 255) && (cs.length = 1 || cs.head? ≠ some '0')

/-- How many of the eight pieces of an address of version 6 some text
stands for, none if it is no piece; only the last may be an address of
version 4, which stands for two. -/
def pieceCount? (isLast : Bool) (cs : List Char) : Option Nat :=
  if 1 ≤ cs.length ∧ cs.length ≤ 4
    ∧ cs.all (fun c => (hexValue? c).isSome) then some 1
  else
    let parts := pieces (· == '.') cs
    if isLast && parts.length = 4 && parts.all isByte then some 2 else none

/-- The number of pieces between colons. -/
def piecesCount? (mayEnd : Bool) (cs : List Char) : Option Nat :=
  if cs.isEmpty then some 0
  else
    let parts := pieces (· == ':') cs
    let counts :=
      parts.zipIdx.map fun (part, i) =>
        pieceCount? (mayEnd && i + 1 = parts.length) part
    counts.foldl (fun sum count => do return (← sum) + (← count)) (some 0)

/-- A text cut at the first two colons side by side. -/
def cutAtGap? : List Char → Option (List Char × List Char)
  | ':' :: ':' :: rest => some ([], rest)
  | c :: rest =>
    (cutAtGap? rest).map fun (before, behind) => (c :: before, behind)
  | [] => none

/-- Is a text an address of version 6, whole or with a gap? -/
def isAddress (cs : List Char) : Bool :=
  match cutAtGap? cs with
  | some (before, behind) =>
    match piecesCount? false before, piecesCount? true behind with
    | some m, some n => m + n ≤ 7
    | _, _ => false
  | none => piecesCount? true cs == some 8 && !cs.isEmpty

def isForbidden (c : Char) : Bool :=
  c.toNat = 0 || "\t\n\r #/:<>?@[\\]^|".toList.contains c

def isHost (cs : List Char) : Bool :=
  match cs with
  | '[' :: rest => rest.getLast? == some ']' && isAddress rest.dropLast
  | cs => cs.all fun c => !isForbidden c

/-- A host and what stands behind it, which is a port, a path or the end. -/
def cutHost : (inBrackets : Bool) → List Char → List Char × List Char
  | _, [] => ([], [])
  | inBrackets, c :: rest =>
    if (c = ':' && !inBrackets) || c = '/' || isQuestionOrHash c then
      ([], c :: rest)
    else
      let (host, behind) := cutHost (c = '[' || (inBrackets && c ≠ ']')) rest
      (c :: host, behind)

/-- What stands behind a port, which may be empty. -/
def afterPort? (cs : List Char) : Option (List Char) :=
  let digits := cs.takeWhile fun c => (digitValue? c).isSome
  let rest := cs.drop digits.length
  let isInRange := digits.isEmpty || (digitsValue? digits).any (· ≤ 0xffff)
  let isEnd := match rest with
    | [] => true
    | c :: _ => c = '/' || c = '\\' || isQuestionOrHash c
  if isInRange && isEnd then some rest else none

/-- Cut at the last at sign. -/
def cutUser (cs : List Char) : Option (List Char) × List Char :=
  let host := (cs.reverse.takeWhile (· ≠ '@')).reverse
  if host.length = cs.length then (none, cs)
  else (some (cs.take (cs.length - host.length - 1)), host)

/-- What stands behind an authority. -/
def afterAuthority? (cs : List Char) : Option (List Char) := do
  let isInside (c : Char) := c ≠ '/' && !isQuestionOrHash c
  let (user, host) := cutUser (cs.takeWhile isInside)
  let cs := host ++ cs.dropWhile isInside
  if user == some [] && host.isEmpty && !cs.isEmpty then none
  let (host, rest) := cutHost false cs
  if !isHost host then none
  let hasUser := user.any fun name => name ≠ [] && name ≠ [':']
  if host.isEmpty && (hasUser || rest.head? == some ':') then none
  match rest with
  | ':' :: port => afterPort? port
  | rest => some rest

-- ============================================================== paths

/-- A segment with its encoded dots decoded, as far as it matters. -/
def plainDots : List Char → List Char
  | '%' :: '2' :: 'e' :: rest => '.' :: plainDots rest
  | '%' :: '2' :: 'E' :: rest => '.' :: plainDots rest
  | c :: rest => c :: plainDots rest
  | [] => []

/-- A letter and a colon or bar, which no dots remove. -/
def isDrive : List Char → Bool
  | [c, mark] => c.isAlpha && (mark = ':' || mark = '|')
  | _ => false

/-- The segments of a path, the last first, with one more resolved. -/
def resolve (path : List (List Char)) (segment : List Char) :
    List (List Char) :=
  if plainDots segment = ['.'] then path
  else if plainDots segment = ['.', '.'] then
    match path with
    | last :: rest => if isDrive last then path else rest
    | [] => []
  else segment :: path

/-- Does a path name anything but slashes? -/
def namesDatabase (path : List Char) : Bool :=
  let segments :=
    pieces (· == '/') (path.takeWhile fun c => !isQuestionOrHash c)
  (segments.foldl resolve []).any (· ≠ [])

/-- Is a text the address of a database? -/
def isValid (url : String) : Bool :=
  match scheme? (significant url) with
  | none => false
  | some (scheme, rest) =>
    (scheme = "postgres" || scheme = "postgresql") && match rest with
      | '/' :: '/' :: rest =>
        (afterAuthority? rest).any fun path => namesDatabase path
      | '/' :: path => namesDatabase path
      | path => (path.takeWhile fun c => !isQuestionOrHash c).any (· ≠ '/')

/-- The address to connect to, which must be there and be valid. -/
def check (url : Option String) : Except DatabaseError String :=
  match url with
  | none => .error (.configMissing "DATABASE_URL")
  | some url => if isValid url then .ok url else .error .invalidDatabaseUrl

end Tenancy.DatabaseUrl
