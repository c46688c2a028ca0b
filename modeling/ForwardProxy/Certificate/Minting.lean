import ForwardProxy.Certificate.Document
import ForwardProxy.Certificate.KeyPair

/-!
# Making certificates

A new key and a certificate for it. The certificate of an authority may sign others; that of a server
names its host once more, as an address or as a host name, and says which key signed it. Who issues a
certificate is another key pair, or the new key itself.
-/

namespace ForwardProxy.Certificate

/-- What is to be certified. -/
structure Order where
  commonName : String
  organization : String
  authority : Bool
  deriving DecidableEq, Repr

/-- Where and when a certificate is made: random bytes, and the moment. -/
structure Mint where
  entropy : Number.Entropy
  now : Nat
  deriving DecidableEq, Repr

/-- A new certificate, and its private key in the plain form. -/
structure Minted where
  certificate : Bytes
  key : Bytes
  deriving DecidableEq, Repr

/-- How many random bytes make a serial number. -/
def serialBytes : Nat := 20

/-- A certificate is valid from so many days before it is made. -/
def backdateDays : Nat := 2

/-- A certificate is valid for so many days after it is made. -/
def validityDays : Nat := 3650

/-! ## Content -/

/-- The first bit is cleared, so that the number is not negative. -/
def clearSign : Bytes → Bytes
  | b :: bs => (b % 0x80) :: bs
  | [] => []

/-- A random serial number of twenty bytes that is not negative, in its only form. -/
def serialOf (random : Bytes) : Bytes := Der.naturalContent (Der.number (clearSign random))

/-- The serial numbers of the next `n` certificates, if they are all that randomness is drawn for. -/
def Mint.serials (m : Mint) : Nat → List Bytes
  | 0 => []
  | n + 1 =>
    let (random, entropy) := m.entropy.bytes serialBytes
    serialOf random :: Mint.serials { m with entropy } n

/-- The name on a certificate. -/
def Order.name (o : Order) : Name :=
  [(commonNameOid, o.commonName), (organizationOid, o.organization)]

/-- The host on a certificate. A host name has to be in ASCII. -/
def Order.altName (o : Order) : Except Error Tls.AltName :=
  match Tls.AltName.ofString o.commonName with
  | .ip a => .ok (.ip a)
  | .dns name =>
    if name.toList.all fun c => c.toNat < 0x80 then .ok (.dns name)
    else .error (.creation "invalid host name: not an ASCII text")

/-- The name of a key: the start of its digest. -/
def keyName (k : Rsa.PublicKey) : Bytes := (Digest.Sha256.hash (writeKey k)).take 20

/-- The host on a certificate, as bytes. -/
def writeAltName : Tls.AltName → Bytes
  | .dns name => Der.item 0x82 (Bytes.ofString name)
  | .ip a => Der.item 0x87 a

/-- The uses of a key, as bits: signatures, transport of keys, and, for an authority, signatures of
certificates. -/
def usageBits (authority : Bool) : Bytes :=
  Der.item Der.bitStringTag (if authority then [2, 0xA4] else [5, 0xA0])

/-- What a certificate is for. `issuerKey` is the key that signs it. -/
def Order.extensions (o : Order) (key issuerKey : Rsa.PublicKey) : Except Error (List Extension) :=
  if o.authority then
    .ok [⟨keyUsageOid, true, usageBits true⟩,
      ⟨subjectKeyOid, false, Der.item Der.octetStringTag (keyName key)⟩,
      ⟨basicConstraintsOid, true, Der.sequence [Der.item Der.booleanTag [0xFF]]⟩]
  else do
    let name ← o.altName
    return [⟨authorityKeyOid, false, Der.sequence [Der.item 0x80 (keyName issuerKey)]⟩,
      ⟨altNamesOid, false, Der.sequence [writeAltName name]⟩,
      ⟨keyUsageOid, true, usageBits false⟩,
      ⟨extendedUsageOid, false, Der.sequence [serverAuthOid.write]⟩]

/-! ## Issuers -/

/-- Who signs: a name and a key. -/
structure Issuer where
  name : Name
  key : Rsa.Numbers
  deriving DecidableEq, Repr

/-- The key of a key pair, if it can sign. -/
def KeyPair.signingKey (k : KeyPair) : Except Error Rsa.Numbers :=
  match Rsa.unwrap k.key with
  | .error fault => .error (.ofKey fault)
  | .ok plain =>
    match Rsa.Numbers.read plain with
    | some numbers =>
      if numbers.canSign then .ok numbers else .error (.malformedKey "unusable private key")
    | none => .error (.ofKey .malformed)

/-- The key pair as an issuer. -/
def KeyPair.issuer (k : KeyPair) : Except Error Issuer := do
  let key ← k.signingKey
  match Document.read k.certificate with
  | some d => return ⟨d.content.subject, key⟩
  | none => .error (.creation "unusable issuer certificate: invalid content")

/-! ## Minting -/

/-- A new key and its certificate, issued by a parent or by itself. The host name is looked at before
the parent. -/
def mint (o : Order) (parent : Option KeyPair) (m : Mint) : Except Error Minted × Mint :=
  let (random, entropy) := m.entropy.bytes serialBytes
  let (key?, entropy) := Rsa.Numbers.generate entropy
  let m := { m with entropy }
  match key? with
  | none => (.error (.keyGeneration "no primes found"), m)
  | some key =>
    let made : Except Error Minted := do
      if !o.authority then let _ ← o.altName
      let issuer ← match parent with
        | some p => p.issuer
        | none => pure ⟨o.name, key⟩
      let extensions ← o.extensions key.publicKey issuer.key.publicKey
      let content : Content := {
        serial := serialOf random
        issuer := issuer.name
        notBefore := m.now - backdateDays * Calendar.daySeconds
        notAfter := m.now + validityDays * Calendar.daySeconds
        subject := o.name
        key := key.publicKey
        extensions }
      return ⟨content.sign issuer.key, key.write⟩
    (made, m)

end ForwardProxy.Certificate
