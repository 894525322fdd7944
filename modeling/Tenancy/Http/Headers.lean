/-
The headers of a request. Names do not tell capitals from small letters,
and of several values of one name the first counts. A value may hold any
bytes, but is used as text only if it holds nothing but printable ASCII
and tabs.
-/
import Tenancy.Text.Split

namespace Tenancy.Http

/-- Names and values of headers, in the order sent. -/
abbrev Headers := List (String × String)

/-- A character of a value that can be used as text. -/
def isHeaderText (c : Char) : Bool :=
  c = '\t' || (0x20 ≤ c.toNat && c.toNat < 0x7F)

namespace Headers

/-- The first value of a name. -/
def get? (headers : Headers) (name : String) : Option String :=
  (headers.find? fun h => Text.sameIgnoringCase h.1 name).map Prod.snd

/-- The first value of a name, if it can be used as text. -/
def text? (headers : Headers) (name : String) : Option String :=
  (headers.get? name).filter fun value => value.toList.all isHeaderText

end Headers

end Tenancy.Http
