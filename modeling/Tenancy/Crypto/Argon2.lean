/-
Argon2, as RFC 9106 defines it, in its three variants and two versions,
without a secret. The memory is a number of lanes of equal length, each
cut into four slices; every pass fills slice after slice, lane after
lane, each block from the one before it and one elsewhere. Where that
other block lies depends on the data in one variant, on the position
only in another, and in the third on the position in the first half of
the first pass.
-/
import Tenancy.Crypto.Blake2b

namespace Tenancy.Crypto.Argon2

inductive Variant where
  | d
  | i
  | id
deriving DecidableEq

def Variant.number : Variant → Nat
  | .d => 0
  | .i => 1
  | .id => 2

/-- Everything that a digest depends on, but for the password and the salt. -/
structure Params where
  variant : Variant
  /-- 16 or 19. -/
  version : Nat
  /-- In units of 1024 bytes. -/
  memory : Nat
  passes : Nat
  lanes : Nat
  /-- Data that goes with the digest. -/
  data : List UInt8
  /-- How many bytes the digest has. -/
  length : Nat
deriving DecidableEq

-- =========================================================== hashing

/-- A digest of any length, made of digests of at most 64 bytes. -/
def longDigestFrom :
    (halves : Nat) → (previous : List UInt8) → (remaining : Nat) → List UInt8
  | 0, previous, remaining => Blake2b.digest remaining previous
  | halves + 1, previous, remaining =>
    let next := Blake2b.digest 64 previous
    next.take 32 ++ longDigestFrom halves next (remaining - 32)

/-- A digest of any length. -/
def longDigest (length : Nat) (message : List UInt8) : List UInt8 :=
  let message := littleEndian 4 length ++ message
  if length ≤ 64 then Blake2b.digest length message
  else longDigestFrom ((length + 31) / 32 - 2) message length

/-- The sum of two words and twice the product of their lower halves. -/
def add (x y : UInt64) : UInt64 :=
  x + y + 2 * ((x &&& 0xffffffff) * (y &&& 0xffffffff))

/-- A round over sixteen of a block's words. -/
def round (v : Words) (words : List Nat) : Words :=
  let places := words.toArray
  Blake2b.places.foldl
    (fun v (i, j, k, l) =>
      v.mix add add add (places.getD i 0) (places.getD j 0)
        (places.getD k 0) (places.getD l 0))
    v

/-- The words of the rows and then of the columns of a block. -/
def lines : List (List Nat) :=
  (List.range 8).map (fun i => (List.range 16).map fun j => 16 * i + j)
    ++ (List.range 8).map fun i => (List.range 8).flatMap fun j =>
      [2 * i + 16 * j, 2 * i + 16 * j + 1]

/-- The sum of two blocks without carries. -/
def xor (x y : Words) : Words := x.zipWith (· ^^^ ·) y

/-- The block made from two blocks. -/
def combine (x y : Words) : Words :=
  let r := xor x y
  xor r (lines.foldl round r)

def zeroBlock : Words := Array.replicate 128 0

-- ============================================================ memory

/-- How the memory is cut. -/
structure Layout where
  lanes : Nat
  /-- The number of blocks in a slice of a lane. -/
  segment : Nat

def Layout.laneLength (layout : Layout) : Nat := 4 * layout.segment

/-- The place of a block in the memory. -/
def Layout.index (layout : Layout) (lane column : Nat) : Nat :=
  lane * layout.laneLength + column

def Params.layout (p : Params) : Layout := ⟨p.lanes, p.memory / (4 * p.lanes)⟩

/-- A slice of one lane in one pass. -/
structure Segment where
  pass : Nat
  lane : Nat
  slice : Nat

/-- The digest of all inputs. -/
def Params.seed (p : Params) (password salt : List UInt8) : List UInt8 :=
  let counted (bytes : List UInt8) := littleEndian 4 bytes.length ++ bytes
  Blake2b.digest 64 (
    [p.lanes, p.length, p.memory, p.passes, p.version,
      p.variant.number].flatMap (littleEndian 4)
      ++ counted password ++ counted salt ++ counted [] ++ counted p.data)

/-- The memory with the first two blocks of every lane. -/
def Params.start (p : Params) (seed : List UInt8) : Array Words :=
  let layout := p.layout
  (List.range p.lanes).foldl
    (fun memory lane => [0, 1].foldl
      (fun memory column =>
        memory.setIfInBounds (layout.index lane column)
          (Words.ofBytes
            (longDigest 1024
              (seed ++ littleEndian 4 column ++ littleEndian 4 lane))))
      memory)
    (Array.replicate (p.lanes * layout.laneLength) zeroBlock)

-- ========================================================= references

/-- Do references of a segment depend on positions only? -/
def Params.isPositional (p : Params) (s : Segment) : Bool :=
  match p.variant with
  | .d => false
  | .i => true
  | .id => s.pass = 0 && s.slice < 2

/-- The words that references of a segment are made from, 128 at a time. -/
def Params.positionalWords (p : Params) (s : Segment) (block : Nat) : Words :=
  let parts :=
    [s.pass, s.lane, s.slice, p.lanes * p.layout.laneLength, p.passes,
      p.variant.number, block + 1]
  let input := (parts.map UInt64.ofNat).toArray ++ Array.replicate 121 0
  combine zeroBlock (combine zeroBlock input)

/-- The place that a word refers to from a place in a segment. -/
def Layout.reference (layout : Layout) (s : Segment) (position : Nat)
    (word : UInt64) : Nat :=
  let low := word.toNat % 0x100000000
  let high := word.toNat / 0x100000000
  let lane := if s.pass = 0 ∧ s.slice = 0 then s.lane else high % layout.lanes
  let finished :=
    if s.pass = 0 then s.slice * layout.segment else 3 * layout.segment
  let area :=
    if lane = s.lane then finished + position - 1
    else if position = 0 then finished - 1 else finished
  let offset := area - 1 - area * (low * low / 0x100000000) / 0x100000000
  let first := if s.pass = 0 then 0 else (s.slice + 1) * layout.segment
  layout.index lane ((first + offset) % layout.laneLength)

/-- Fill one block of a segment. -/
def Params.fillBlock (p : Params) (s : Segment) (positional : Array Words)
    (memory : Array Words) (position : Nat) : Array Words :=
  let layout := p.layout
  let column := s.slice * layout.segment + position
  let here := layout.index s.lane column
  let before :=
    layout.index s.lane ((column + layout.laneLength - 1) % layout.laneLength)
  let previous := memory.getD before zeroBlock
  let word :=
    if p.isPositional s then
      (positional.getD (position / 128) zeroBlock).word (position % 128)
    else previous.word 0
  let other := memory.getD (layout.reference s position word) zeroBlock
  let block := combine previous other
  let block :=
    if s.pass ≠ 0 ∧ p.version ≠ 16 then xor block (memory.getD here zeroBlock)
    else block
  memory.setIfInBounds here block

/-- Fill a segment; the first two blocks of a lane are there from the start. -/
def Params.fillSegment (p : Params) (memory : Array Words) (s : Segment) :
    Array Words :=
  let length := p.layout.segment
  let positional :=
    if p.isPositional s then
      (Array.range ((length + 127) / 128)).map (p.positionalWords s)
    else #[]
  let positions := List.range length
  let positions :=
    if s.pass = 0 ∧ s.slice = 0 then positions.drop 2 else positions
  positions.foldl (p.fillBlock s positional) memory

/-- The segments in the order in which they are filled. -/
def Params.segments (p : Params) : List Segment :=
  (List.range p.passes).flatMap fun pass =>
    (List.range 4).flatMap fun slice => (List.range p.lanes).map fun lane =>
      ⟨pass, lane, slice⟩

def digest (p : Params) (password salt : List UInt8) : List UInt8 :=
  let layout := p.layout
  let memory := p.segments.foldl p.fillSegment (p.start (p.seed password salt))
  let last := (List.range p.lanes).foldl
    (fun sum lane =>
      xor sum
        (memory.getD (layout.index lane (layout.laneLength - 1)) zeroBlock))
    zeroBlock
  longDigest p.length last.toBytes

end Tenancy.Crypto.Argon2
