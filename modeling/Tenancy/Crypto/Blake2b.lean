/-
BLAKE2b without a key, as RFC 7693 defines it, for digests of 1 to 64
bytes. The mixing of four words is shared with Argon2, which adds
differently.
-/
import Tenancy.Crypto.Bytes

namespace Tenancy.Crypto

/-- Words of 64 bits. -/
abbrev Words := Array UInt64

namespace Words

/-- The word at a place; zero beyond the end. -/
def word (v : Words) (i : Nat) : UInt64 := v.getD i 0

def rotateRight (x n : UInt64) : UInt64 := (x >>> n) ||| (x <<< (64 - n))

/-- Mix the words at four places, with a way to add for each half. -/
def mix (add₁ add₂ : UInt64 → UInt64 → UInt64) (add : UInt64 → UInt64 → UInt64)
    (i j k l : Nat) (v : Words) : Words :=
  let a := add₁ (v.word i) (v.word j)
  let d := rotateRight (v.word l ^^^ a) 32
  let c := add (v.word k) d
  let b := rotateRight (v.word j ^^^ c) 24
  let a := add₂ a b
  let d := rotateRight (d ^^^ a) 16
  let c := add c d
  let b := rotateRight (b ^^^ c) 63
  (((v.setIfInBounds i a).setIfInBounds j b).setIfInBounds k c).setIfInBounds
    l d

/-- The words of some bytes, the lowest byte first. -/
def ofBytes (bytes : List UInt8) : Words :=
  ((chunks 8 bytes).map fun w => UInt64.ofNat (ofLittleEndian w)).toArray

def toBytes (v : Words) : List UInt8 :=
  v.toList.flatMap fun w => littleEndian 8 w.toNat

end Words

namespace Blake2b

/-- The first 64 bits of the fractional parts of the square roots of the
first eight primes. -/
def initial : Words := #[
  0x6a09e667f3bcc908, 0xbb67ae8584caa73b,
  0x3c6ef372fe94f82b, 0xa54ff53a5f1d36f1,
  0x510e527fade682d1, 0x9b05688c2b3e6c1f,
  0x1f83d9abfb41bd6b, 0x5be0cd19137e2179]

/-- The order in which each round takes the words of the message. -/
def schedule : List (List Nat) := [
  [0, 1, 2, 3, 4, 5, 6, 7, 8, 9, 10, 11, 12, 13, 14, 15],
  [14, 10, 4, 8, 9, 15, 13, 6, 1, 12, 0, 2, 11, 7, 5, 3],
  [11, 8, 12, 0, 5, 2, 15, 13, 10, 14, 3, 6, 7, 1, 9, 4],
  [7, 9, 3, 1, 13, 12, 11, 14, 2, 6, 5, 10, 4, 0, 15, 8],
  [9, 0, 5, 7, 2, 4, 10, 15, 14, 1, 11, 12, 6, 8, 3, 13],
  [2, 12, 6, 10, 0, 11, 8, 3, 4, 13, 7, 5, 15, 14, 1, 9],
  [12, 5, 1, 15, 14, 13, 4, 10, 0, 7, 6, 3, 9, 2, 8, 11],
  [13, 11, 7, 14, 12, 1, 3, 9, 5, 0, 15, 4, 8, 6, 2, 10],
  [6, 15, 14, 9, 11, 3, 0, 8, 12, 2, 13, 7, 1, 4, 10, 5],
  [10, 2, 8, 4, 7, 6, 1, 5, 15, 11, 9, 14, 3, 12, 13, 0],
  [0, 1, 2, 3, 4, 5, 6, 7, 8, 9, 10, 11, 12, 13, 14, 15],
  [14, 10, 4, 8, 9, 15, 13, 6, 1, 12, 0, 2, 11, 7, 5, 3]]

/-- The four places that each mixing of a round takes: columns, then
diagonals. -/
def places : List (Nat × Nat × Nat × Nat) := [
  (0, 4, 8, 12), (1, 5, 9, 13), (2, 6, 10, 14), (3, 7, 11, 15),
  (0, 5, 10, 15), (1, 6, 11, 12), (2, 7, 8, 13), (3, 4, 9, 14)]

/-- One round, with the message's words in the round's order. -/
def round (m v : Words) (order : List Nat) : Words :=
  ((places.zip (chunks 2 order))).foldl
    (fun v ((i, j, k, l), pair) =>
      v.mix (fun a b => a + b + m.word (pair.getD 0 0))
        (fun a b => a + b + m.word (pair.getD 1 0)) (· + ·) i j k l)
    v

/-- A block worked into the state; `counted` bytes of the message lie up to its
end. -/
def compress (h : Words) (block : List UInt8) (counted : Nat) (isLast : Bool) :
    Words :=
  let m := Words.ofBytes block
  let v : Words := h ++ initial
  let v : Words := v.setIfInBounds 12 (v.word 12 ^^^ UInt64.ofNat counted)
  let v : Words := if isLast then v.setIfInBounds 14 (~~~ v.word 14) else v
  let v := schedule.foldl (round m) v
  (Array.range 8).map fun i => h.word i ^^^ v.word i ^^^ v.word (i + 8)

/-- The state behind the blocks of a message, of which so many bytes came
before. -/
def absorb (h : Words) (before : Nat) : List (List UInt8) → Words
  | [] => h
  | [block] =>
    compress h (block ++ List.replicate (128 - block.length) 0)
      (before + block.length) true
  | block :: rest =>
    absorb (compress h block (before + 128) false) (before + 128) rest

/-- The digest of so many bytes. -/
def digest (length : Nat) (message : List UInt8) : List UInt8 :=
  let h :=
    initial.setIfInBounds 0
      (initial.word 0 ^^^ 0x01010000 ^^^ UInt64.ofNat length)
  let blocks := if message.isEmpty then [[]] else chunks 128 message
  (absorb h 0 blocks).toBytes.take length

end Blake2b

end Tenancy.Crypto
