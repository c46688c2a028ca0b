import ForwardProxy.Der.Item

/-!
# Object identifiers

An identifier is a path of numbers, its arcs. The first two share a byte; every further arc is
written in groups of seven bits, at most five of them, of which a fifth holds no more than four
bits. Identifiers of fewer than three and of more than 39 bytes are not in use.
-/

namespace ForwardProxy.Der

/-- An object identifier, as it is written. -/
structure Oid where
  content : Bytes
  deriving DecidableEq, Repr

namespace Oid

/-! ## From and to arcs -/

/-- The groups of seven bits of an arc, the most significant first; all but the last byte have the
highest bit set. -/
def arcBytesBefore (tail : Bytes) (n : Nat) : Bytes :=
  if _h : n < 0x80 then UInt8.ofNat (n + 0x80) :: tail
  else arcBytesBefore (UInt8.ofNat (n % 0x80 + 0x80) :: tail) (n / 0x80)
termination_by n
decreasing_by omega

/-- An arc as bytes. -/
def arcBytes (n : Nat) : Bytes :=
  if n < 0x80 then [UInt8.ofNat n] else arcBytesBefore [UInt8.ofNat (n % 0x80)] (n / 0x80)

/-- The identifier with the given arcs. -/
def ofArcs : List Nat → Oid
  | a :: b :: arcs => ⟨UInt8.ofNat (40 * a + b) :: arcs.flatMap arcBytes⟩
  | _ => ⟨[]⟩

/-- The arcs that bytes spell behind the first byte; `n` is the part of an arc in front of them. -/
def readArcs (n : Nat) : Bytes → List Nat
  | [] => []
  | b :: rest =>
    let value := 0x80 * n + b.toNat % 0x80
    if b < 0x80 then value :: readArcs 0 rest else readArcs value rest

/-- The arcs of an identifier. -/
def arcs (o : Oid) : List Nat :=
  match o.content with
  | [] => []
  | first :: rest => first.toNat / 40 :: first.toNat % 40 :: readArcs 0 rest

/-- The arcs between points. -/
def render (o : Oid) : String := String.intercalate "." (o.arcs.map toString)

/-! ## From and to bytes -/

/-- Bytes are whole arcs; `place` counts the bytes of an arc in front of them. -/
def areArcs : (place : Nat) → Bytes → Bool
  | place, [] => place == 0
  | place, b :: rest =>
    if 4 ≤ place && 0x10 ≤ b then false
    else areArcs (if b < 0x80 then 0 else place + 1) rest

/-- The identifier may be in use. -/
def InUse (o : Oid) : Prop :=
  3 ≤ o.content.length ∧ o.content.length ≤ 39 ∧
    ∃ first rest, o.content = first :: rest ∧ first < 120 ∧ areArcs 0 rest = true

/-- The identifier with a content, if it is one that may be in use. -/
def ofContent? (b : Bytes) : Option Oid :=
  if b.length < 3 || 39 < b.length then none
  else
    match b with
    | [] => none
    | first :: rest => if first < 120 && areArcs 0 rest then some ⟨b⟩ else none

/-- The identifier as bytes. -/
def write (o : Oid) : Bytes := item oidTag o.content

/-! ## Identifiers in use -/

/-- RSA keys. -/
def rsaEncryption : Oid := ⟨[0x2A, 0x86, 0x48, 0x86, 0xF7, 0x0D, 0x01, 0x01, 0x01]⟩

/-- RSA signatures over SHA-256. -/
def sha256WithRsa : Oid := ⟨[0x2A, 0x86, 0x48, 0x86, 0xF7, 0x0D, 0x01, 0x01, 0x0B]⟩

/-- SHA-256. -/
def sha256 : Oid := ⟨[0x60, 0x86, 0x48, 0x01, 0x65, 0x03, 0x04, 0x02, 0x01]⟩

end Oid
end ForwardProxy.Der
