import ForwardProxy.Bytes

/-!
# Base 64

Bytes as text in groups of six bits. Three bytes make four characters; one or two bytes at the end
make two or three, which are padded to four with equals signs where padding is wanted. There are
two alphabets, which differ in the last two of their characters.
-/

namespace ForwardProxy.Text.Base64

/-- The characters for 62 and 63. -/
structure Alphabet where
  c62 : Char
  c63 : Char
  deriving DecidableEq, Repr

/-- The alphabet of mail and certificates. -/
def standard : Alphabet := ⟨'+', '/'⟩

/-- The alphabet for use in targets. -/
def urlSafe : Alphabet := ⟨'-', '_'⟩

/-- The character of a value below 64. -/
def digit (a : Alphabet) (v : Nat) : Char :=
  if v < 26 then Char.ofNat (65 + v)
  else if v < 52 then Char.ofNat (71 + v)
  else if v < 62 then Char.ofNat (v - 4)
  else if v = 62 then a.c62 else a.c63

/-- The value of a character. -/
def value? (a : Alphabet) (c : Char) : Option Nat :=
  if 'A' ≤ c ∧ c ≤ 'Z' then some (c.toNat - 65)
  else if 'a' ≤ c ∧ c ≤ 'z' then some (c.toNat - 71)
  else if '0' ≤ c ∧ c ≤ '9' then some (c.toNat + 4)
  else if c = a.c62 then some 62
  else if c = a.c63 then some 63
  else none

/-- Four values for three bytes. -/
def sextets (x y z : Nat) : List Nat :=
  [x / 4, x % 4 * 16 + y / 16, y % 16 * 4 + z / 64, z % 64]

/-- The characters of the bytes, with or without padding. -/
def encode (a : Alphabet) (pad : Bool) : Bytes → List Char
  | x :: y :: z :: rest => (sextets x.toNat y.toNat z.toNat).map (digit a) ++ encode a pad rest
  | [x, y] => ((sextets x.toNat y.toNat 0).take 3).map (digit a) ++ (if pad then ['='] else [])
  | [x] => ((sextets x.toNat 0 0).take 2).map (digit a) ++ (if pad then ['=', '='] else [])
  | [] => []

/-- The bytes of four values, or of fewer at the end. A single value at the end stands for no
byte. -/
def octets : List Nat → Option Bytes
  | p :: q :: r :: s :: rest => do
    let tail ← octets rest
    some (UInt8.ofNat (p * 4 + q / 16) :: UInt8.ofNat (q % 16 * 16 + r / 4) ::
      UInt8.ofNat (r % 4 * 64 + s) :: tail)
  | [p, q, r] => some [UInt8.ofNat (p * 4 + q / 16), UInt8.ofNat (q % 16 * 16 + r / 4)]
  | [p, q] => some [UInt8.ofNat (p * 4 + q / 16)]
  | [_] => none
  | [] => some []

end ForwardProxy.Text.Base64
