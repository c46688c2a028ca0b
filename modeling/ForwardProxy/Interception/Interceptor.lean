import ForwardProxy.Certificate.Identity
import ForwardProxy.Interception.LeafCache

/-!
# The interceptor

A certificate authority with a cache of leaves. It starts from the files of its authority, which are
made if there are none, and from the directory of its leaves.
-/

namespace ForwardProxy.Interception

/-- The common name of the certificate authority. -/
def authorityName : String := "interceptor.waypost.local"

/-- Where the interceptor keeps its files. -/
structure Places where
  authority : Certificate.Paths
  leaves : String
  deriving DecidableEq, Repr

/-- A certificate authority, the directory of its leaves, and those that have been loaded. -/
structure Interceptor where
  ca : Certificate.KeyPair
  leaves : String
  cache : LeafCache := {}
  deriving DecidableEq, Repr

/-- What is certified for the authority itself. -/
def authorityOrder : Certificate.Order := ⟨authorityName, Certificate.organization, true⟩

/-- The key pair of the authority: the one in its files, or a new one. -/
def authority (p : Certificate.Paths) (w : Certificate.Workshop) :
    Except Error Certificate.KeyPair × Certificate.Workshop :=
  let (result, w) := Certificate.getOrGenerate p authorityOrder none w
  (result.mapError .bootstrap, w)

/-- The certificate, stored under the path, belongs to a certificate authority. -/
def ensureAuthority (ca : Certificate.KeyPair) (path : String) : Except Error Unit :=
  match Certificate.Document.read ca.certificate with
  | none => .error (.bootstrap (.creation "invalid certificate"))
  | some d => if d.isAuthority then .ok () else .error (.invalidCa path)

namespace Interceptor

/-- Starts an interceptor: the directory of the leaves is made first, then the authority is loaded or
made, and then its certificate is looked at. -/
def start (p : Places) (w : Certificate.Workshop) : Except Error Interceptor × Certificate.Workshop :=
  match Files.Tree.makeDirectories p.leaves w.tree with
  | (.error f, tree) => (.error (.bootstrap (.io p.leaves (.system f))), { w with tree })
  | (.ok _, tree) =>
    let (result, w) := authority p.authority { w with tree }
    let started : Except Error Interceptor := do
      let ca ← result
      ensureAuthority ca p.authority.cert
      return ⟨ca, p.leaves, {}⟩
    (started, w)

/-- The key pair of a host. -/
def leaf (host : String) (i : Interceptor) (w : Certificate.Workshop) :
    Except Error Certificate.KeyPair × Interceptor × Certificate.Workshop :=
  let (result, cache, w) := i.cache.get i.ca i.leaves host w
  (result, { i with cache }, w)

/-- Loads the key pairs of hosts in advance. Failures are passed over. -/
def preload (hosts : List String) (i : Interceptor) (w : Certificate.Workshop) :
    Interceptor × Certificate.Workshop :=
  hosts.foldl (fun s host => (s.1.leaf host s.2).2) (i, w)

/-- The certificates that a client is shown for a host: the leaf and the authority behind it. The
leaf must be fit to stand for a server. -/
def chainFor (host : String) (i : Interceptor) (w : Certificate.Workshop) :
    Except Error (List Bytes) × Interceptor × Certificate.Workshop :=
  let (result, i, w) := i.leaf host w
  let chain : Except Error (List Bytes) := do
    let k ← result
    match k.flaw? with
    | some why => throw (.tls why)
    | none => return k.chainWith i.ca
  (chain, i, w)

end Interceptor
end ForwardProxy.Interception
