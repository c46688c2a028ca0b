import ForwardProxy.Der.Oid

/-!
# Private keys of RSA and their two forms

The plain form is a sequence of nine whole numbers: a version, which is 0, and the numbers of the
key. The wrapped form holds the plain form as octets, behind a version and the name of the
algorithm; attributes and a public key may follow. `wrap` and `unwrap` lead from one to the other
and check that what they are given is one whole key and nothing else.
-/

namespace ForwardProxy.Rsa

/-- Why bytes are no private key of RSA. -/
inductive KeyFault
  /-- They are not in the form of a private key. -/
  | malformed
  /-- They are a private key of another algorithm. -/
  | otherAlgorithm
  deriving DecidableEq, Repr

/-- The fault in words. -/
def KeyFault.message : KeyFault → String
  | malformed => "invalid encoding"
  | otherAlgorithm => "private key is not an RSA key"

/-! ## The plain form -/

/-- The items are those of a plain key: version 0 and eight numbers. -/
def areNumbers (items : List Der.Item) : Bool :=
  items.length == 9 && items.all Der.isNatural &&
    (items.head?.map Der.Item.content) == some [0]

/-- The bytes are a plain private key. -/
def isPlainKey (b : Bytes) : Bool :=
  match Der.readSequence b with
  | some items => areNumbers items
  | none => false

/-! ## The wrapped form -/

/-- Two items that name an algorithm: its identifier, and at most one parameter of any type. -/
def readAlgorithm (i : Der.Item) : Option Der.Oid :=
  match i.inside Der.sequenceTag with
  | some (oid :: parameters) =>
    if oid.tag = Der.oidTag && parameters.length ≤ 1 then Der.Oid.ofContent? oid.content else none
  | _ => none

/-- A string of bits without unused ones, under context tag 1. -/
def isPublicKey (i : Der.Item) : Bool := i.tag == 0x81 && i.content.head? == some 0

/-- A context-specific item around exactly one other. -/
def isExtension (i : Der.Item) : Bool :=
  Der.isContextTag i.tag && Der.isConstructed i.tag &&
    (Der.Item.readOne i.content).isSome

/-- The number of a tag. -/
def tagNumber (i : Der.Item) : UInt8 := i.tag % 0x20

/-- An attribute, of any form. -/
def isAttribute (i : Der.Item) : Bool := Der.isContextTag i.tag && tagNumber i == 0

/-- The items behind the key: attributes, a public key if there is one, and extensions. Those that
are in order are accepted, and the result says whether a public key is among them. -/
def readExtras (extras : List Der.Item) : Option Bool :=
  match extras.dropWhile isAttribute with
  | [] => some false
  | i :: rest =>
    if Der.isContextTag i.tag && tagNumber i == 1 then
      if isPublicKey i && rest.all isExtension then some true else none
    else if (i :: rest).all isExtension then some false else none

/-- A wrapped key: its algorithm and the octets inside. The version is 1 exactly if a public key is
there. -/
structure Wrapped where
  algorithm : Der.Oid
  octets : Bytes
  deriving DecidableEq, Repr

/-- The wrapped key whose items these are. -/
def Wrapped.ofItems? : List Der.Item → Option Wrapped
  | version :: algorithm :: key :: extras =>
    if version.tag = Der.integerTag && key.tag = Der.octetStringTag then
      match readAlgorithm algorithm, readExtras extras with
      | some algorithm, some hasPublicKey =>
        if version.content = [if hasPublicKey then 1 else 0] then some ⟨algorithm, key.content⟩
        else none
      | _, _ => none
    else none
  | _ => none

/-- The wrapped key that the bytes are. -/
def Wrapped.read (b : Bytes) : Option Wrapped := (Der.readSequence b).bind Wrapped.ofItems?

/-! ## From one form to the other -/

/-- The plain key inside a wrapped one. -/
def unwrap (b : Bytes) : Except KeyFault Bytes :=
  match Wrapped.read b with
  | none => .error .malformed
  | some w =>
    if w.algorithm = Der.Oid.rsaEncryption then
      if isPlainKey w.octets then .ok w.octets else .error .malformed
    else .error .otherAlgorithm

/-- The items of a wrapped key: version 0, RSA without parameters, and the octets. -/
def wrappedItems (plain : Bytes) : List Bytes :=
  [Der.natural 0, Der.sequence [Der.Oid.rsaEncryption.write, Der.item Der.nullTag []],
    Der.item Der.octetStringTag plain]

/-- A plain key wrapped, if the result is not longer than the greatest length. -/
def wrap (plain : Bytes) : Except KeyFault Bytes :=
  let wrapped := Der.sequence (wrappedItems plain)
  if isPlainKey plain && wrapped.length ≤ Der.maxLength then .ok wrapped else .error .malformed

end ForwardProxy.Rsa
