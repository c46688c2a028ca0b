import ForwardProxy.Rsa.Numbers

/-!
# What a wrapped key may hold

Beside the octets of a key, a wrapped one names its algorithm, with a parameter if the algorithm has
one; attributes, a public key and extensions may follow. An envelope is all of that, as it is written;
it is proper if everything in it has the form that it should have.
-/

namespace ForwardProxy.Rsa

/-! ## Behind the octets -/

/-- Attributes, a public key, and extensions. -/
structure Extras where
  attributes : List Der.Item := []
  publicKey : Option Bytes := none
  extensions : List Der.Item := []
  deriving DecidableEq, Repr

namespace Extras

/-- A public key as a string of bits without unused ones. -/
def publicKeyItem (key : Bytes) : Der.Item := ⟨0x81, 0 :: key⟩

/-- The items in their order. -/
def items (x : Extras) : List Der.Item :=
  x.attributes ++ (x.publicKey.map publicKeyItem).toList ++ x.extensions

/-- An extension is a context-specific item that holds one other. -/
structure Extension (i : Der.Item) : Prop where
  context : Der.isContextTag i.tag = true
  constructed : Der.isConstructed i.tag = true
  inner : ∃ j : Der.Item, j.Writable ∧ i.content = j.write

/-- Attributes have the number 0. Where there is no public key, the first extension must not be taken
for an attribute or for one. -/
structure Proper (x : Extras) : Prop where
  attributes : ∀ i ∈ x.attributes, isAttribute i = true
  extensions : ∀ i ∈ x.extensions, Extension i
  first : x.publicKey = none → ∀ i ∈ x.extensions.head?, tagNumber i ≠ 0 ∧ tagNumber i ≠ 1

end Extras

/-! ## Envelopes -/

/-- Everything that a wrapped key holds. -/
structure Envelope where
  algorithm : Der.Oid
  parameter : Option Der.Item := none
  octets : Bytes
  extras : Extras := {}
  deriving DecidableEq, Repr

namespace Envelope

/-- The version tells whether a public key is there. -/
def version (e : Envelope) : Der.Item :=
  ⟨Der.integerTag, [if e.extras.publicKey.isSome then 1 else 0]⟩

/-- The name of the algorithm, and its parameter. -/
def algorithmItem (e : Envelope) : Der.Item :=
  ⟨Der.sequenceTag, e.algorithm.write ++ e.parameter.toList.flatMap Der.Item.write⟩

/-- The items in their order. -/
def items (e : Envelope) : List Der.Item :=
  e.version :: e.algorithmItem :: ⟨Der.octetStringTag, e.octets⟩ :: e.extras.items

/-- The envelope as bytes. -/
def write (e : Envelope) : Bytes := Der.sequence (e.items.map Der.Item.write)

/-- All parts have the form that they should have, and together they are not too long. -/
structure Proper (e : Envelope) : Prop where
  algorithm : e.algorithm.InUse
  parameter : ∀ i ∈ e.parameter, i.Writable
  extras : e.extras.Proper
  writable : ∀ i ∈ e.extras.items, i.Writable
  length : e.write.length ≤ Der.maxLength

end Envelope

/-- The bytes are one whole key of RSA in its wrapped form, and the plain key is the one inside. -/
def Wraps (wrapped plain : Bytes) : Prop :=
  ∃ (e : Envelope) (k : Numbers), e.Proper ∧ e.write = wrapped ∧
    e.algorithm = Der.Oid.rsaEncryption ∧ e.octets = plain ∧ k.write = plain

/-- The normal form of a wrapped key: its plain key, wrapped anew. -/
def normalForm (wrapped : Bytes) : Except KeyFault Bytes := (unwrap wrapped).bind wrap

end ForwardProxy.Rsa
