/-
Scanning JSON: tokens, and the texts between quotes.

A scan takes what is left of a document and gives a value and what is
left behind it. A scan that meets a fault gives no value, but it still
tells where it stopped — behind the fault if the offending octet was
taken, before it otherwise — so that a reader that can do without the
value goes on from there. One that cannot treats every fault alike.

A document is bytes and need not be UTF-8 from end to end: only a text
that is wanted is decoded, at its closing quote. So what is scanned here
are octets, characters that each stand for the byte of their number.
-/
import Tenancy.Text.Hex
import Tenancy.Text.Utf8

namespace Tenancy.Json

open Text

/-- A value at the start of the octets, or none, and the octets from where
the scan stopped. -/
abbrev Scan (α : Type) := List Char → Option α × List Char

-- ============================================================ tokens

/-- The four blanks between tokens. -/
def isGap (c : Char) : Bool :=
  c = ' ' || c = '\n' || c = '\t' || c = '\r'

/-- The octets from the next token on. -/
def skipGaps (cs : List Char) : List Char := cs.dropWhile isGap

/-- The rest of a fixed word; the first octet that differs is taken. -/
def scanWord {α : Type} (value : α) : (word : List Char) → Scan α
  | [], cs => (some value, cs)
  | _ :: _, [] => (none, [])
  | w :: word, c :: cs => if c = w then scanWord value word cs else (none, cs)

def scanColon : Scan Unit := fun cs =>
  match skipGaps cs with
  | ':' :: rest => (some (), rest)
  | rest => (none, rest)

/-- The start of the next item of an array: false behind the last. -/
def nextItem (isFirst : Bool) : Scan Bool := fun cs =>
  match skipGaps cs with
  | [] => (none, [])
  | ']' :: rest => (some false, ']' :: rest)
  | rest =>
    if isFirst then (some true, rest)
    else match rest with
      | ',' :: rest =>
        match skipGaps rest with
        | [] => (none, [])
        | ']' :: rest => (none, ']' :: rest)
        | rest => (some true, rest)
      | rest => (none, rest)

/-- The next name of an object, up to its opening quote: false behind the
last. -/
def nextName (isFirst : Bool) : Scan Bool := fun cs =>
  match skipGaps cs with
  | '\x7d' :: rest => (some false, '\x7d' :: rest)
  | '"' :: rest => if isFirst then (some true, rest) else (none, '"' :: rest)
  | ',' :: rest =>
    if isFirst then (none, ',' :: rest)
    else match skipGaps rest with
      | '"' :: rest => (some true, rest)
      | rest => (none, rest)
  | rest => (none, rest)

/-- The bracket that ends an array. A comma in its place is taken. -/
def closeArray : Scan Unit := fun cs =>
  match skipGaps cs with
  | ']' :: rest => (some (), rest)
  | ',' :: rest => (none, skipGaps rest)
  | rest => (none, rest)

/-- The brace that ends an object. -/
def closeObject : Scan Unit := fun cs =>
  match skipGaps cs with
  | '\x7d' :: rest => (some (), rest)
  | rest => (none, rest)

/-- What was found inside of brackets, and then the closing one: it is
looked for behind a fault, too, and the value counts only with it. -/
def closedBy {α : Type} (close : Scan Unit) (found : Option α × List Char) :
    Option α × List Char :=
  let (closed, rest) := close found.2
  (closed.bind fun () => found.1, rest)

-- ============================================================= texts

/-- The byte that a one-letter escape stands for. -/
def simpleEscape? (c : Char) : Option UInt8 :=
  match c with
  | '"' => some 0x22
  | '\\' => some 0x5C
  | '/' => some 0x2F
  | 'b' => some 8
  | 'f' => some 12
  | 'n' => some 10
  | 'r' => some 13
  | 't' => some 9
  | _ => none

/-- The four digits of an escaped code unit. -/
def codeUnit? (a b c d : Char) : Option Nat := hexFrom 0 [a, b, c, d]

/-- The first and the second half of a surrogate pair. -/
def isLeading (unit : Nat) : Bool := 0xD800 ≤ unit && unit ≤ 0xDBFF

def isTrailing (unit : Nat) : Bool := 0xDC00 ≤ unit && unit ≤ 0xDFFF

/-- Put bytes before those that were scanned. -/
def prepend (bytes : List UInt8) (scanned : Option (List UInt8) × List Char) :
    Option (List UInt8) × List Char :=
  (scanned.1.map (bytes ++ ·), scanned.2)

/-- The bytes of a text behind its opening quote, which end before the
closing one. -/
def scanBytes : Scan (List UInt8)
  | [] => (none, [])
  | '"' :: rest => (some [], rest)
  | '\\' :: 'u' :: a :: b :: c :: d :: rest =>
    match codeUnit? a b c d with
    | none => (none, rest)
    | some unit =>
      if isTrailing unit then (none, rest)
      else if isLeading unit then
        match rest with
        | '\\' :: 'u' :: e :: f :: g :: h :: rest =>
          match codeUnit? e f g h with
          | none => (none, rest)
          | some low =>
            if isTrailing low then
              prepend
                (utf8OfChar
                  (Char.ofNat
                    (0x10000 + (unit - 0xD800) * 0x400 + (low - 0xDC00))))
                (scanBytes rest)
            else (none, rest)
        | '\\' :: 'u' :: _ => (none, [])
        | '\\' :: _ :: rest => (none, rest)
        | _ :: rest => (none, rest)
        | [] => (none, [])
      else prepend (utf8OfChar (Char.ofNat unit)) (scanBytes rest)
  | '\\' :: 'u' :: _ => (none, [])
  | '\\' :: e :: rest =>
    match simpleEscape? e with
    | some byte => prepend [byte] (scanBytes rest)
    | none => (none, rest)
  | c :: rest =>
    if c = '\\' ∨ c.toNat < 0x20 then (none, rest)
    else prepend [c.toNat.toUInt8] (scanBytes rest)

/-- A text behind its opening quote. -/
def scanString : Scan String := fun cs =>
  match scanBytes cs with
  | (some bytes, rest) => ((readUtf8? bytes).map String.ofList, rest)
  | (none, rest) => (none, rest)

end Tenancy.Json
