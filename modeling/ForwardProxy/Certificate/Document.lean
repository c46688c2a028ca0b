import ForwardProxy.Calendar.Date
import ForwardProxy.Rsa.Numbers
import ForwardProxy.Tls.Name

/-!
# Certificates

The content of a certificate of the third version: whose key it certifies, who says so, for how long
and for what. A certificate is written as a signed document, and it can be read back.
-/

namespace ForwardProxy.Certificate

/-! ## Content -/

/-- What a key may be used for, by number of bit. -/
inductive Usage
  | digitalSignature
  | keyEncipherment
  | certificateSigning
  deriving DecidableEq, Repr

/-- Attributes of a name: what they are and their text. -/
abbrev Name := List (Der.Oid × String)

/-- An extension: what it is, whether it must be understood, and its content. -/
structure Extension where
  kind : Der.Oid
  critical : Bool
  content : Bytes
  deriving DecidableEq, Repr

/-- The part of a certificate that is signed. -/
structure Content where
  serial : Bytes
  issuer : Name
  notBefore : Nat
  notAfter : Nat
  subject : Name
  key : Rsa.PublicKey
  extensions : List Extension
  deriving DecidableEq, Repr

/-- A certificate that has been read. -/
structure Document where
  content : Content
  algorithm : Der.Oid
  /-- The bytes that are signed. -/
  signed : Bytes
  signature : Bytes
  deriving DecidableEq, Repr

/-! ## Identifiers -/

/-- Common name. -/
def commonNameOid : Der.Oid := .ofArcs [2, 5, 4, 3]

/-- Name of an organization. -/
def organizationOid : Der.Oid := .ofArcs [2, 5, 4, 10]

/-- Which key signed. -/
def authorityKeyOid : Der.Oid := .ofArcs [2, 5, 29, 35]

/-- Which key is certified. -/
def subjectKeyOid : Der.Oid := .ofArcs [2, 5, 29, 14]

/-- Further names of the subject. -/
def altNamesOid : Der.Oid := .ofArcs [2, 5, 29, 17]

/-- What the key may be used for. -/
def keyUsageOid : Der.Oid := .ofArcs [2, 5, 29, 15]

/-- What the certificate may be used for. -/
def extendedUsageOid : Der.Oid := .ofArcs [2, 5, 29, 37]

/-- Whether the subject may sign certificates. -/
def basicConstraintsOid : Der.Oid := .ofArcs [2, 5, 29, 19]

/-- Servers of TLS. -/
def serverAuthOid : Der.Oid := .ofArcs [1, 3, 6, 1, 5, 5, 7, 3, 1]

/-- Clients of TLS. -/
def clientAuthOid : Der.Oid := .ofArcs [1, 3, 6, 1, 5, 5, 7, 3, 2]

/-- Any use. -/
def anyUsageOid : Der.Oid := .ofArcs [2, 5, 29, 37, 0]

/-! ## Writing -/

namespace Name

/-- The name as bytes: a set for each attribute. -/
def write (n : Name) : Bytes :=
  Der.sequence (n.map fun a =>
    Der.set [Der.sequence [a.1.write, Der.item Der.utf8Tag (Bytes.ofString a.2)]])

end Name

/-- A moment as bytes. -/
def writeMoment (m : Nat) : Bytes :=
  let (text, short) := Calendar.render m
  Der.item (if short then 0x17 else 0x18) (Bytes.ofString text)

/-- A string of bits without unused ones. -/
def bitString (b : Bytes) : Bytes := Der.item Der.bitStringTag (0 :: b)

/-- The algorithm of a signature. -/
def signatureAlgorithm : Bytes :=
  Der.sequence [Der.Oid.sha256WithRsa.write, Der.item Der.nullTag []]

/-- A public key as bytes. -/
def writeKey (k : Rsa.PublicKey) : Bytes :=
  Der.sequence [Der.sequence [Der.Oid.rsaEncryption.write, Der.item Der.nullTag []],
    bitString (Der.sequence [Der.natural k.modulus, Der.natural k.exponent])]

/-- An extension as bytes. -/
def Extension.write (e : Extension) : Bytes :=
  Der.sequence ([e.kind.write] ++ (if e.critical then [Der.item Der.booleanTag [0xFF]] else []) ++
    [Der.item Der.octetStringTag e.content])

/-- The bytes that are signed. -/
def Content.write (c : Content) : Bytes :=
  Der.sequence [Der.item (Der.contextTag 0) (Der.natural 2), Der.item Der.integerTag c.serial,
    signatureAlgorithm, c.issuer.write,
    Der.sequence [writeMoment c.notBefore, writeMoment c.notAfter], c.subject.write,
    writeKey c.key, Der.item (Der.contextTag 3) (Der.sequence (c.extensions.map Extension.write))]

/-- A certificate signed with a key. -/
def Content.sign (c : Content) (k : Rsa.Numbers) : Bytes :=
  Der.sequence [c.write, signatureAlgorithm, bitString (k.sign c.write)]

/-! ## Reading -/

/-- A sequence of items. -/
def readSequence (i : Der.Item) : Option (List Der.Item) := i.inside Der.sequenceTag

/-- An object identifier. -/
def readOid (i : Der.Item) : Option Der.Oid :=
  if i.tag = Der.oidTag then some ⟨i.content⟩ else none

/-- The text of an attribute. -/
def readText (i : Der.Item) : Option String := Bytes.utf8? i.content

/-- One attribute of a name, in a set of its own. -/
def readAttribute (i : Der.Item) : Option (Der.Oid × String) := do
  match ← i.inside Der.setTag with
  | [single] =>
    match ← readSequence single with
    | [kind, text] => some (← readOid kind, ← readText text)
    | _ => none
  | _ => none

/-- A name. -/
def readName (i : Der.Item) : Option Name := do (← readSequence i).mapM readAttribute

/-- A moment. -/
def readMoment (i : Der.Item) : Option Nat :=
  let text := (Bytes.latin1 i.content).toList
  if i.tag = 0x17 then Calendar.read true text
  else if i.tag = 0x18 then Calendar.read false text
  else none

/-- The content of a string of bits without unused ones. -/
def readBits (i : Der.Item) : Option Bytes :=
  match i.tag == Der.bitStringTag, i.content with
  | true, 0 :: b => some b
  | _, _ => none

/-- A public key. -/
def readKey (i : Der.Item) : Option Rsa.PublicKey := do
  match ← readSequence i with
  | [_, bits] =>
    match ← readSequence (← Der.Item.readOne (← readBits bits)) with
    | [n, e] => some ⟨Der.number n.content, Der.number e.content⟩
    | _ => none
  | _ => none

/-- An extension. -/
def readExtension (i : Der.Item) : Option Extension := do
  match ← readSequence i with
  | [kind, content] => some ⟨← readOid kind, false, content.content⟩
  | [kind, critical, content] => some ⟨← readOid kind, critical.content == [0xFF], content.content⟩
  | _ => none

/-- The extensions, which are the last part and may be missing. -/
def readExtensions : List Der.Item → Option (List Extension)
  | [] => some []
  | [i] => do
    if i.tag != Der.contextTag 3 then none
    (← readSequence (← Der.Item.readOne i.content)).mapM readExtension
  | _ => none

/-- The part that is signed. -/
def readContent (i : Der.Item) : Option Content := do
  match ← readSequence i with
  | version :: serial :: _ :: issuer :: validity :: subject :: key :: rest =>
    if version.tag != Der.contextTag 0 || serial.tag != Der.integerTag then none
    match ← readSequence validity with
    | [notBefore, notAfter] =>
      some {
        serial := serial.content
        issuer := ← readName issuer
        notBefore := ← readMoment notBefore
        notAfter := ← readMoment notAfter
        subject := ← readName subject
        key := ← readKey key
        extensions := ← readExtensions rest }
    | _ => none
  | _ => none

/-- Reads a certificate. Bytes behind it are of no account. -/
def Document.read (b : Bytes) : Option Document := do
  let (whole, _) ← Der.Item.read b
  match ← readSequence whole with
  | [content, algorithm, signature] =>
    match ← readSequence algorithm with
    | kind :: _ => some ⟨← readContent content, ← readOid kind, content.write, ← readBits signature⟩
    | [] => none
  | _ => none

namespace Document

/-- The extension of a kind. -/
def extension? (d : Document) (kind : Der.Oid) : Option Bytes :=
  (d.content.extensions.find? fun e => e.kind = kind).map Extension.content

/-- The signature is that of a key. -/
def isSignedBy (d : Document) (k : Rsa.PublicKey) : Bool := k.verifies d.signed d.signature

/-- What is said about signing certificates: whether the subject may, and how long a chain may
be. -/
def constraints? (d : Document) : Option (Bool × Option Nat) := do
  let items ← readSequence (← Der.Item.readOne (← d.extension? basicConstraintsOid))
  match items with
  | [] => some (false, none)
  | flag :: rest =>
    if flag.tag = Der.booleanTag then
      some (flag.content == [0xFF], rest.head?.map fun i => Der.number i.content)
    else some (false, some (Der.number flag.content))

/-- The subject may sign certificates. -/
def isAuthority (d : Document) : Bool :=
  match d.constraints? with
  | some (ca, _) => ca
  | none => false

/-- Further names of the subject. -/
def altNames? (d : Document) : Option (List Tls.AltName) := do
  let items ← readSequence (← Der.Item.readOne (← d.extension? altNamesOid))
  some (items.filterMap fun i =>
    if i.tag = 0x82 then some (.dns (Bytes.latin1 i.content))
    else if i.tag = 0x87 then some (.ip i.content)
    else none)

/-- The uses for which the certificate stands. -/
def extendedUsage? (d : Document) : Option (List Der.Oid) := do
  (← readSequence (← Der.Item.readOne (← d.extension? extendedUsageOid))).mapM readOid

/-- The bits of the key's uses, the first bit first. -/
def usageBits? (d : Document) : Option (List Bool) := do
  match ← Der.Item.readOne (← d.extension? keyUsageOid) with
  | ⟨_, _ :: bytes⟩ =>
    some (bytes.flatMap fun b => (List.range 8).map fun n => (b.toNat >>> (7 - n)) % 2 == 1)
  | _ => none

end Document
end ForwardProxy.Certificate
