/-
The parameters of a query: pairs of name and value between ampersands,
cut at the first equals sign. A plus sign stands for a space, and bytes
that are no UTF-8 are replaced, never refused.
-/
import Tenancy.Text.Percent
import Tenancy.Text.Split

namespace Tenancy.Http

open Text

/-- The text that a name or value of a query stands for. -/
def formText (cs : List Char) : String :=
  let spaced := cs.map fun c => if c = '+' then ' ' else c
  String.ofList (readUtf8Lossy (percentDecode (spaced.flatMap utf8OfChar)))

/-- The name and the value of one pair; without an equals sign the value is
empty. -/
def formPair (cs : List Char) : String × String :=
  (formText (cs.takeWhile (· ≠ '=')),
    formText ((cs.dropWhile (· ≠ '=')).drop 1))

/-- The parameters of a query, in order; nothing stands between two
ampersands side by side. -/
def formPairs (query : String) : List (String × String) :=
  ((pieces (· == '&') query.toList).filter (· ≠ [])).map formPair

/-- The value of the first parameter of a name. -/
def formValue? (query name : String) : Option String :=
  ((formPairs query).find? fun p => p.1 == name).map Prod.snd

end Tenancy.Http
