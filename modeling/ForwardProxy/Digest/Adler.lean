import ForwardProxy.Bytes

/-!
# The checksum of Adler

Two sums modulo the largest prime below 65536: of the bytes, and of the first sums.
-/

namespace ForwardProxy.Digest.Adler

/-- The modulus. -/
def modulus : Nat := 65521

/-- Both sums behind one more byte. -/
def add (sums : Nat × Nat) (b : UInt8) : Nat × Nat :=
  let low := (sums.1 + b.toNat) % modulus
  (low, (sums.2 + low) % modulus)

/-- The checksum of bytes, in four bytes. -/
def hash (b : Bytes) : Bytes :=
  let (low, high) := b.foldl add (1, 0)
  [high / 256, high, low / 256, low].map UInt8.ofNat

end ForwardProxy.Digest.Adler
