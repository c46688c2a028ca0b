import ForwardProxy.Digest.Sha256

/-!
# Random bytes

A source of random bytes is a seed and a count of the blocks that have been drawn from it. The same
source gives the same bytes; what makes them random is the seed.
-/

namespace ForwardProxy.Number

/-- A seed, and how many blocks have been drawn. -/
structure Entropy where
  seed : Bytes
  drawn : Nat := 0
  deriving DecidableEq, Repr

namespace Entropy

/-- The block with a number: a digest of the seed and the number. -/
def block (seed : Bytes) (n : Nat) : Bytes :=
  Digest.Sha256.hash (seed ++ Bytes.ofString (toString n))

/-- The next `n` bytes. -/
def bytes (e : Entropy) (n : Nat) : Bytes × Entropy :=
  let blocks := (n + 31) / 32
  (((List.range blocks).flatMap fun i => block e.seed (e.drawn + i)).take n,
    { e with drawn := e.drawn + blocks })

/-- The next `n` bytes as a number. -/
def number (e : Entropy) (n : Nat) : Nat × Entropy :=
  let (b, e) := e.bytes n
  (b.foldl (fun v x => 256 * v + x.toNat) 0, e)

end Entropy
end ForwardProxy.Number
