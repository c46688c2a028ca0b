import ForwardProxy.Certificate.Store

/-!
# Identities of servers

A key pair can stand for a TLS server if its certificate can be read, its key can sign, and the one
certifies the other. The proxy itself has such a pair if its clients are to speak TLS to it.
-/

namespace ForwardProxy.Certificate

/-- The organization on certificates that are made here. -/
def organization : String := "Waypost"

/-- The common name on the certificate of the proxy itself. -/
def listenerName : String := "proxy.waypost.local"

/-- Why a key pair cannot stand for a server, if it cannot. -/
def KeyPair.flaw? (k : KeyPair) : Option String :=
  match k.signingKey, Document.read k.certificate with
  | .error _, _ => some "unexpected error: failed to parse private key"
  | .ok _, none => some "invalid peer certificate: BadEncoding"
  | .ok numbers, some d =>
    if d.content.key = numbers.publicKey then none
    else some "keys may not be consistent: KeyMismatch"

/-- The key pair of the proxy itself: the one in its files, or a new one that has signed itself. -/
def listener (p : Paths) (w : Workshop) : Except Error KeyPair × Workshop :=
  getOrGenerate p ⟨listenerName, organization, false⟩ none w

end ForwardProxy.Certificate
