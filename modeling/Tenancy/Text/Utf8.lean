/-
UTF-8. Every text has its bytes; bytes are read back strictly, where
anything that is not well formed refuses the whole, or leniently, where
each piece that is not well formed becomes one replacement character: a
piece is the longest start of a well-formed character that stands there,
and one byte if none does.
-/
namespace Tenancy.Text

def utf8OfChar (c : Char) : List UInt8 :=
  let n := c.toNat
  if n < 0x80 then [n.toUInt8]
  else if n < 0x800 then [(0xC0 + n / 0x40).toUInt8, (0x80 + n % 0x40).toUInt8]
  else if n < 0x10000 then
    [(0xE0 + n / 0x1000).toUInt8, (0x80 + n / 0x40 % 0x40).toUInt8,
      (0x80 + n % 0x40).toUInt8]
  else
    [(0xF0 + n / 0x40000).toUInt8, (0x80 + n / 0x1000 % 0x40).toUInt8,
      (0x80 + n / 0x40 % 0x40).toUInt8, (0x80 + n % 0x40).toUInt8]

def utf8 (s : String) : List UInt8 := s.toList.flatMap utf8OfChar

/-- The character that stands for a byte where bytes are looked at one by
one: the one of its number. -/
def charOfByte (b : UInt8) : Char := Char.ofNat b.toNat

/-- The bytes of a text, each as a character. -/
def octets (s : String) : List Char := (utf8 s).map charOfByte

/-- What stands at the start of some bytes. -/
inductive Piece where
  /-- A character of so many bytes. -/
  | char (c : Char) (length : Nat)
  /-- So many bytes that start no well-formed character. -/
  | bad (length : Nat)

/-- The bytes that may follow the first of a longer character, and how
many follow it: the range of the second narrows behind four first bytes,
which keeps out overlong forms, surrogates and what lies beyond the last
plane. -/
def continuation (first : Nat) : Option (Nat × Nat × Nat) :=
  if 0xC2 ≤ first ∧ first ≤ 0xDF then some (1, 0x80, 0xBF)
  else if first = 0xE0 then some (2, 0xA0, 0xBF)
  else if first = 0xED then some (2, 0x80, 0x9F)
  else if 0xE1 ≤ first ∧ first ≤ 0xEF then some (2, 0x80, 0xBF)
  else if first = 0xF0 then some (3, 0x90, 0xBF)
  else if first = 0xF4 then some (3, 0x80, 0x8F)
  else if 0xF1 ≤ first ∧ first ≤ 0xF3 then some (3, 0x80, 0xBF)
  else none

/-- The value bits of a first byte with so many bytes behind it. -/
def firstBits (first following : Nat) : Nat :=
  first
    % (if following = 1 then 0x20 else if following = 2 then 0x10 else 0x08)

/-- What stands behind a byte. -/
def pieceAt (first : UInt8) (rest : List UInt8) : Piece :=
  let n := first.toNat
  if n < 0x80 then .char (Char.ofNat n) 1
  else match continuation n with
    | none => .bad 1
    | some (following, low, high) =>
      match rest with
      | [] => .bad 1
      | second :: rest =>
        let s := second.toNat
        if s < low ∨ high < s then .bad 1
        else
          let tail :=
            (rest.take (following - 1)).takeWhile fun b => 0x80 ≤ b ∧ b ≤ 0xBF
          if tail.length = following - 1 then
            let value :=
              (second :: tail).foldl (fun v b => v * 0x40 + b.toNat % 0x40)
                (firstBits n following)
            .char (Char.ofNat value) (following + 1)
          else .bad (2 + tail.length)

/-- The characters of bytes, all of which must be well formed. The fuel
bounds the number of bytes. -/
def readUtf8For : (fuel : Nat) → List UInt8 → Option (List Char)
  | _, [] => some []
  | 0, _ => none
  | fuel + 1, b :: rest =>
    match pieceAt b rest with
    | .char c length =>
      do return c :: (← readUtf8For fuel (rest.drop (length - 1)))
    | .bad _ => none

def readUtf8? (bytes : List UInt8) : Option (List Char) :=
  readUtf8For bytes.length bytes

/-- The characters of bytes, with a replacement for each bad piece. -/
def readUtf8LossyFor : (fuel : Nat) → List UInt8 → List Char
  | _, [] => []
  | 0, _ => []
  | fuel + 1, b :: rest =>
    match pieceAt b rest with
    | .char c length => c :: readUtf8LossyFor fuel (rest.drop (length - 1))
    | .bad length => '\uFFFD' :: readUtf8LossyFor fuel (rest.drop (length - 1))

def readUtf8Lossy (bytes : List UInt8) : List Char :=
  readUtf8LossyFor bytes.length bytes

end Tenancy.Text
