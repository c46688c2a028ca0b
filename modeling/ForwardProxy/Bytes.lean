/-!
# Bytes

Byte strings are lists of octets. This module moves between octets and text in the three ways the
proxy needs: UTF-8, one character per octet (header values), and hexadecimal.
-/

namespace ForwardProxy

/-- A byte string. -/
abbrev Bytes := List UInt8

namespace Bytes

/-! ## UTF-8 -/

/-- The UTF-8 encoding of a text. -/
def ofString (s : String) : Bytes := s.toUTF8.data.toList

/-- The text that the bytes encode, when they are well-formed UTF-8. -/
def utf8? (b : Bytes) : Option String := String.fromUTF8? (ByteArray.mk b.toArray)

/-! ## One character per octet -/

/-- The text whose characters have the octets as their codes. -/
def latin1 (b : Bytes) : String := String.ofList (b.map fun x => Char.ofNat x.toNat)

/-- The octets whose values are the characters' codes, reduced modulo 256. -/
def ofLatin1 (s : String) : Bytes := s.toList.map fun c => UInt8.ofNat c.toNat

/-! ## Hexadecimal -/

/-- A digit of base sixteen, in small letters. -/
def hexDigit (n : Nat) : Char := if n < 10 then Char.ofNat (48 + n) else Char.ofNat (87 + n)

/-- The two digits of an octet. -/
def hexOctet (b : UInt8) : List Char := [hexDigit (b.toNat / 16), hexDigit (b.toNat % 16)]

/-- Two digits for each octet, in small letters. -/
def hex (b : Bytes) : String := String.ofList (b.flatMap hexOctet)

/-- The value of a digit of base sixteen, in either case. -/
def hexValue? (c : Char) : Option Nat :=
  if '0' ≤ c ∧ c ≤ '9' then some (c.toNat - 48)
  else if 'a' ≤ c ∧ c ≤ 'f' then some (c.toNat - 87)
  else if 'A' ≤ c ∧ c ≤ 'F' then some (c.toNat - 55)
  else none

/-- Pairs of digits become octets; `done` holds the octets read, last first. -/
def unhexFrom (done : Bytes) : List Char → Option Bytes
  | [] => some done.reverse
  | [_] => none
  | a :: b :: cs => do
    let hi ← hexValue? a
    let lo ← hexValue? b
    unhexFrom (UInt8.ofNat (16 * hi + lo) :: done) cs

/-- Reads pairs of hexadecimal digits. -/
def unhex? (s : String) : Option Bytes := unhexFrom [] s.toList

end Bytes
end ForwardProxy
