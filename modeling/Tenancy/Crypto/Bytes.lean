/-
Words as bytes, in either order, as the hash functions lay them out.
-/
namespace Tenancy.Crypto

/-- The bytes of a number, the highest first. -/
def bigEndian : (width : Nat) → Nat → List UInt8
  | 0, _ => []
  | width + 1, n => bigEndian width (n / 256) ++ [(n % 256).toUInt8]

/-- The bytes of a number, the lowest first. -/
def littleEndian : (width : Nat) → Nat → List UInt8
  | 0, _ => []
  | width + 1, n => (n % 256).toUInt8 :: littleEndian width (n / 256)

/-- The number of some bytes, the highest first. -/
def ofBigEndian (bytes : List UInt8) : Nat :=
  bytes.foldl (fun n b => n * 256 + b.toNat) 0

/-- The number of some bytes, the lowest first. -/
def ofLittleEndian (bytes : List UInt8) : Nat :=
  bytes.foldr (fun b n => b.toNat + 256 * n) 0

/-- A list in parts of one size, the last perhaps shorter. The fuel bounds
the number of parts. -/
def chunksFor {α : Type} (size : Nat) : (fuel : Nat) → List α → List (List α)
  | _, [] => []
  | 0, _ => []
  | fuel + 1, xs => xs.take size :: chunksFor size fuel (xs.drop size)

def chunks {α : Type} (size : Nat) (xs : List α) : List (List α) :=
  chunksFor size xs.length xs

end Tenancy.Crypto
