/-
Reading JSON. A reader takes the octets that are left and gives a value
and what is left behind it, or the first fault met. There are two kinds
of fault: the document is malformed, or it is well formed so far and not
what was asked for. A reader for one shape reports whichever comes first,
so the readers here, of any value and of a value that is passed over,
are also the parts of the shape readers of Json/Shape.

A value that is passed over may nest as deep as it likes; its numbers may
be out of range, and its texts may hold halves of surrogate pairs and
need not be UTF-8.
-/
import Tenancy.Json.Tree

namespace Tenancy.Json

open Text

/-- Why a document was not read. -/
inductive Fault where
  /-- It is no JSON. -/
  | malformed
  /-- It is JSON so far, and not of the shape asked for. -/
  | mismatched
deriving DecidableEq

/-- A reader of the start of a document. -/
abbrev Reader (α : Type) := List Char → Except Fault (α × List Char)

-- ========================================================== scanning

/-- A scan as a reader: no value, no document. -/
def required {α : Type} (scan : Scan α) : Reader α := fun cs =>
  match scan cs with
  | (some a, rest) => .ok (a, rest)
  | (none, _) => .error .malformed

/-- A scan as a reader that can do without the value: it goes on from where
the scan stopped. -/
def forgiven {α : Type} (scan : Scan α) : Reader (Option α) :=
  fun cs => .ok (scan cs)

/-- The rest of a fixed word. -/
def readWord {α : Type} (word : String) (value : α) : Reader α :=
  required (scanWord value word.toList)

/-- A text behind its opening quote. -/
def readString : Reader String := required scanString

def readColon : Reader Unit := required scanColon

def readNumber : Reader Json := required scanNumber

/-- The start of the next item of an array: false behind the last. -/
def readNextItem (isFirst : Bool) : Reader Bool := required (nextItem isFirst)

/-- The next name of an object, up to its opening quote: false behind the
last. -/
def readNextName (isFirst : Bool) : Reader Bool := required (nextName isFirst)

def readArrayEnd : Reader Unit := required closeArray

def readObjectEnd : Reader Unit := required closeObject

/-- Any value that nests at most so deep. -/
def readValueWithin (depth : Nat) : Reader Json := required (scanValue depth)

-- ================================================ values passed over

/-- The rest of a text behind its opening quote, its escapes unread. -/
def skipText : List Char → Option (List Char)
  | [] => none
  | '"' :: rest => some rest
  | '\\' :: 'u' :: a :: b :: c :: d :: rest =>
    if (codeUnit? a b c d).isSome then skipText rest else none
  | '\\' :: e :: rest =>
    if (simpleEscape? e).isSome then skipText rest else none
  | c :: rest => if c = '\\' ∨ c.toNat < 0x20 then none else skipText rest

/-- The rest behind at least one digit. -/
def skipSomeDigits? : List Char → Option (List Char)
  | [] => none
  | c :: rest =>
    if (digitValue? c).isSome then some (skipDigits rest) else none

/-- The rest behind an exponent, if there is one. -/
def skipExponent? : List Char → Option (List Char)
  | 'e' :: rest | 'E' :: rest =>
    match rest with
    | '+' :: rest | '-' :: rest => skipSomeDigits? rest
    | rest => skipSomeDigits? rest
  | cs => some cs

/-- The rest behind a number, whatever its size. -/
def skipNumber? (cs : List Char) : Option (List Char) := do
  let cs := match cs with
    | '-' :: rest => rest
    | cs => cs
  let rest ← match cs with
    | '0' :: rest =>
      match rest with
      | c :: _ => if (digitValue? c).isSome then none else some rest
      | [] => some rest
    | cs => skipSomeDigits? cs
  match rest with
  | '.' :: rest => skipExponent? (← skipSomeDigits? rest)
  | rest => skipExponent? rest

/-- What is open around a value that is passed over. -/
inductive Enclosing where
  | array
  | object
deriving DecidableEq

/-- Pass over a value: the innermost enclosing bracket comes first, and
the flag says that a value is due rather than just behind us. -/
def skipFor :
    (fuel : Nat) → List Enclosing → (due : Bool) → List Char →
      Except Fault (List Char)
  | 0, _, _, _ => .error .malformed
  | _ + 1, [], false, cs => .ok cs
  | fuel + 1, open_, true, cs =>
    match skipGaps cs with
    | 'n' :: rest => do
      let ((), rest) ← readWord "ull" () rest
      skipFor fuel open_ false rest
    | 't' :: rest => do
      let ((), rest) ← readWord "rue" () rest
      skipFor fuel open_ false rest
    | 'f' :: rest => do
      let ((), rest) ← readWord "alse" () rest
      skipFor fuel open_ false rest
    | '"' :: rest =>
      match skipText rest with
      | some rest => skipFor fuel open_ false rest
      | none => .error .malformed
    | '[' :: rest => do
      let (more, rest) ← readNextItem true rest
      skipFor fuel (.array :: open_) more rest
    | '\x7b' :: rest => do
      let (more, rest) ← readNextName true rest
      if more then
        match skipText rest with
        | some rest =>
          let ((), rest) ← readColon rest
          skipFor fuel (.object :: open_) true rest
        | none => .error .malformed
      else skipFor fuel (.object :: open_) false rest
    | rest =>
      match skipNumber? rest with
      | some rest => skipFor fuel open_ false rest
      | none => .error .malformed
  | fuel + 1, .array :: outer, false, cs =>
    match skipGaps cs with
    | ']' :: rest => skipFor fuel outer false rest
    | rest => do
      let (_, rest) ← readNextItem false rest
      skipFor fuel (.array :: outer) true rest
  | fuel + 1, .object :: outer, false, cs =>
    match skipGaps cs with
    | '\x7d' :: rest => skipFor fuel outer false rest
    | rest => do
      let (_, rest) ← readNextName false rest
      match skipText rest with
      | some rest =>
        let ((), rest) ← readColon rest
        skipFor fuel (.object :: outer) true rest
      | none => .error .malformed

/-- Pass over any value. -/
def skipValue : Reader Unit := fun cs => do
  return ((), ← skipFor (2 * cs.length + 2) [] true cs)

end Tenancy.Json
