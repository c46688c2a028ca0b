import ForwardProxy.Certificate.Error
import ForwardProxy.Files.Tree
import ForwardProxy.Pem.Block
import ForwardProxy.Rsa.PrivateKey

/-!
# Key pairs

A key pair is a chain of certificates, never empty, and the private key of the first, in its wrapped
form. It is loaded from two files in text armour: all certificates of the one, and the first private
key of the other.
-/

namespace ForwardProxy.Certificate

/-- What is wrong with a key, as a failure. -/
def Error.ofKey (fault : Rsa.KeyFault) : Error := .malformedKey fault.message

/-- A certificate, the further certificates of its chain, and its private key. -/
structure KeyPair where
  certificate : Bytes
  further : List Bytes := []
  key : Bytes
  deriving DecidableEq, Repr

namespace KeyPair

/-- The chain of certificates. -/
def chain (k : KeyPair) : List Bytes := k.certificate :: k.further

/-- The chain with the certificate of its issuer behind it. -/
def chainWith (k issuer : KeyPair) : List Bytes := k.chain ++ [issuer.certificate]

/-- The certificate in text armour. -/
def certificatePem (k : KeyPair) : String := Pem.encode Pem.certificateLabel k.certificate

/-! ## Loading -/

/-- A content that cannot be read. -/
def unreadable (path : String) : Error := .io path (.content "invalid content")

/-- The certificates of a file with the given content. -/
def certificates (path : String) (content : Bytes) : Except Error (List Bytes) :=
  let found := Pem.read content
  if found.sound then
    .ok ((found.blocks.filter fun b => b.label = Pem.certificateLabel).map Pem.Block.data)
  else .error (unreadable path)

/-- The labels of private keys. -/
def keyLabels : List String := [Pem.rsaKeyLabel, Pem.privateKeyLabel, Pem.curveKeyLabel]

/-- The private key in a block. A plain one is wrapped; a wrapped one is taken as it is. -/
def keyOf (path : String) (b : Pem.Block) : Except Error Bytes :=
  if b.label = Pem.rsaKeyLabel then
    match Rsa.wrap b.data with
    | .ok wrapped => .ok wrapped
    | .error fault => .error (.ofKey fault)
  else if b.label = Pem.privateKeyLabel then .ok b.data
  else .error (.malformedKey (path ++ " does not hold an RSA key"))

/-- The private key of a file with the given content: the first there is. What stands behind it is
not looked at. -/
def privateKey (path : String) (content : Bytes) : Except Error Bytes :=
  let found := Pem.read content
  match found.blocks.find? fun b => keyLabels.contains b.label with
  | some b => keyOf path b
  | none =>
    if found.sound then .error (.missingPem path Pem.rsaKeyLabel) else .error (unreadable path)

/-- The key pair whose files have the given contents. -/
def ofContents (certPath keyPath : String) (cert : Bytes)
    (key : Except Files.Fault Bytes) : Except Error KeyPair := do
  match ← certificates certPath cert with
  | [] => .error (.missingPem certPath Pem.certificateLabel)
  | first :: further =>
    match key with
    | .error fault => .error (.io keyPath (.system fault))
    | .ok content => return ⟨first, further, ← privateKey keyPath content⟩

/-- Loads a key pair. The certificates are looked at before the key. -/
def load (certPath keyPath : String) (t : Files.Tree) : Except Error KeyPair :=
  match Files.Tree.read certPath t with
  | .error fault => .error (.io certPath (.system fault))
  | .ok cert => ofContents certPath keyPath cert (Files.Tree.read keyPath t)

end KeyPair
end ForwardProxy.Certificate
