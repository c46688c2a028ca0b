import ForwardProxy.Certificate.Minting

/-!
# What a certificate says

The content of a certificate in words and numbers: names, uses, life time, and who has signed it.
-/

namespace ForwardProxy.Certificate

/-! ## Names -/

/-- The short name of a kind of attribute, or its arcs. -/
def attributeName (kind : Der.Oid) : String :=
  if kind = commonNameOid then "CN"
  else if kind = organizationOid then "O"
  else kind.render

/-- The attributes of a name, one behind the other. -/
def Name.render (n : Name) : String :=
  String.intercalate ", " (n.map fun a => attributeName a.1 ++ "=" ++ a.2)

namespace Document

/-! ## Uses -/

/-- The uses of a key in words, in the order of their bits. -/
def usageNames : List String :=
  ["Digital Signature", "Non Repudiation", "Key Encipherment", "Data Encipherment",
    "Key Agreement", "Key Cert Sign", "CRL Sign", "Encipher Only", "Decipher Only"]

/-- What the key may be used for, in words. -/
def usageText? (d : Document) : Option String :=
  d.usageBits?.map fun bits =>
    String.intercalate ", " (((usageNames.zip bits).filter Prod.snd).map Prod.fst)

/-- The certificate stands for a use. -/
def standsFor (d : Document) (use : Der.Oid) : Bool :=
  match d.extendedUsage? with
  | some uses => uses.contains use
  | none => false

/-- The certificate says which key has signed it. -/
def namesSigner (d : Document) : Bool := (d.extension? authorityKeyOid).isSome

/-! ## Validity -/

/-- For how many days the certificate is valid. -/
def lifetimeDays (d : Document) : Nat :=
  (d.content.notAfter - d.content.notBefore) / Calendar.daySeconds

/-- How many days lie between the start of validity and a moment behind it. -/
def daysBefore (d : Document) (now : Nat) : Nat :=
  (now - d.content.notBefore + Calendar.daySeconds / 2) / Calendar.daySeconds

/-- The serial number is not negative and takes at most twenty bytes. -/
def serialFits (d : Document) : Bool :=
  d.content.serial.length ≤ serialBytes && Der.isNaturalContent d.content.serial

/-! ## Signers -/

/-- The certificate is signed with the key that it certifies. -/
def isSelfSigned (d : Document) : Bool := d.isSignedBy d.content.key

/-- The certificate is signed with the key that another one certifies. -/
def isIssuedBy (d : Document) (issuer : Bytes) : Bool :=
  match read issuer with
  | some i => d.isSignedBy i.content.key
  | none => false

end Document
end ForwardProxy.Certificate
