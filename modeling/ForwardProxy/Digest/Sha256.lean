import ForwardProxy.Bytes

/-!
# SHA-256

The digest over which certificates are signed. A message is padded to blocks of 64 bytes, and every
block changes a state of eight words; the words of the last state are the digest.
-/

namespace ForwardProxy.Digest.Sha256

/-- The constants of the rounds: the fractions of the cube roots of the first 64 primes. -/
def roundConstants : Array UInt32 :=
  #[0x428A2F98, 0x71374491, 0xB5C0FBCF, 0xE9B5DBA5, 0x3956C25B, 0x59F111F1,
    0x923F82A4, 0xAB1C5ED5, 0xD807AA98, 0x12835B01, 0x243185BE, 0x550C7DC3,
    0x72BE5D74, 0x80DEB1FE, 0x9BDC06A7, 0xC19BF174, 0xE49B69C1, 0xEFBE4786,
    0x0FC19DC6, 0x240CA1CC, 0x2DE92C6F, 0x4A7484AA, 0x5CB0A9DC, 0x76F988DA,
    0x983E5152, 0xA831C66D, 0xB00327C8, 0xBF597FC7, 0xC6E00BF3, 0xD5A79147,
    0x06CA6351, 0x14292967, 0x27B70A85, 0x2E1B2138, 0x4D2C6DFC, 0x53380D13,
    0x650A7354, 0x766A0ABB, 0x81C2C92E, 0x92722C85, 0xA2BFE8A1, 0xA81A664B,
    0xC24B8B70, 0xC76C51A3, 0xD192E819, 0xD6990624, 0xF40E3585, 0x106AA070,
    0x19A4C116, 0x1E376C08, 0x2748774C, 0x34B0BCB5, 0x391C0CB3, 0x4ED8AA4A,
    0x5B9CCA4F, 0x682E6FF3, 0x748F82EE, 0x78A5636F, 0x84C87814, 0x8CC70208,
    0x90BEFFFA, 0xA4506CEB, 0xBEF9A3F7, 0xC67178F2]

/-- The state before the first block: the fractions of the square roots of the first eight
primes. -/
def initialState : List UInt32 :=
  [0x6A09E667, 0xBB67AE85, 0x3C6EF372, 0xA54FF53A, 0x510E527F, 0x9B05688C,
    0x1F83D9AB, 0x5BE0CD19]

/-- A word turned to the right. -/
def rotate (w : UInt32) (n : UInt32) : UInt32 := (w >>> n) ||| (w <<< (32 - n))

/-- Four bytes as a word, the most significant first. -/
def word (a b c d : UInt8) : UInt32 :=
  (a.toUInt32 <<< 24) ||| (b.toUInt32 <<< 16) ||| (c.toUInt32 <<< 8) ||| d.toUInt32

/-- The words of bytes in groups of four. -/
def words : Bytes → List UInt32
  | a :: b :: c :: d :: rest => word a b c d :: words rest
  | _ => []

/-- The bytes of a word. -/
def wordBytes (w : UInt32) : Bytes :=
  [(w >>> 24).toUInt8, (w >>> 16).toUInt8, (w >>> 8).toUInt8, w.toUInt8]

/-- The message with a one bit, zeros, and its length in bits, up to a whole number of blocks. -/
def pad (message : Bytes) : Bytes :=
  let n := message.length
  let zeros := (119 - n % 64) % 64
  let bits := 8 * n
  let size : Bytes := (List.range 8).map fun i => UInt8.ofNat (bits >>> (8 * (7 - i)))
  message ++ 0x80 :: List.replicate zeros 0 ++ size

/-- One more word of the schedule of a block. -/
def extend (w : Array UInt32) : Array UInt32 :=
  let t := w.size
  let back (n : Nat) : UInt32 := w.getD (t - n) 0
  let s0 := rotate (back 15) 7 ^^^ rotate (back 15) 18 ^^^ (back 15 >>> 3)
  let s1 := rotate (back 2) 17 ^^^ rotate (back 2) 19 ^^^ (back 2 >>> 10)
  w.push (back 16 + s0 + back 7 + s1)

/-- The 64 words of the schedule of a block. -/
def schedule (block : Bytes) : Array UInt32 :=
  (List.range 48).foldl (fun w _ => extend w) (words block).toArray

/-- One round with word `w` and constant `k`. -/
def round (w k : UInt32) : List UInt32 → List UInt32
  | [a, b, c, d, e, f, g, h] =>
    let s1 := rotate e 6 ^^^ rotate e 11 ^^^ rotate e 25
    let choice := (e &&& f) ^^^ (~~~e &&& g)
    let t1 := h + s1 + choice + k + w
    let s0 := rotate a 2 ^^^ rotate a 13 ^^^ rotate a 22
    let majority := (a &&& b) ^^^ (a &&& c) ^^^ (b &&& c)
    [t1 + s0 + majority, a, b, c, d + t1, e, f, g]
  | s => s

/-- The state behind a block. -/
def compress (s : List UInt32) (block : Bytes) : List UInt32 :=
  let w := schedule block
  let mixed := (List.range 64).foldl
    (fun s t => round (w.getD t 0) (roundConstants.getD t 0) s) s
  List.zipWith (· + ·) s mixed

/-- The state behind at most `limit` blocks. -/
def absorb : (limit : Nat) → List UInt32 → Bytes → List UInt32
  | 0, s, _ => s
  | limit + 1, s, b => if b.isEmpty then s else absorb limit (compress s (b.take 64)) (b.drop 64)

/-- The digest of a message. -/
def hash (message : Bytes) : Bytes :=
  let padded := pad message
  (absorb (padded.length / 64) initialState padded).flatMap wordBytes

end ForwardProxy.Digest.Sha256
