import ForwardProxy.Certificate.Identity
import ForwardProxy.Interception.Error
import ForwardProxy.Interception.LeafName

/-!
# The cache of leaves

Key pairs of hosts, each loaded once and kept. A look-up takes the lock of the cache; a host that is
not there is loaded by a task that holds the lock until it is done, whether or not the caller still
waits. A load that fails leaves nothing behind and is tried again by the next look-up.
-/

namespace ForwardProxy.Interception

/-- The hosts and their key pairs, and how many loads have succeeded. -/
structure LeafCache where
  entries : List (String × Certificate.KeyPair) := []
  loads : Nat := 0
  deriving DecidableEq, Repr

namespace LeafCache

/-- The key pair of a host, which is given in small letters. -/
def find? (c : LeafCache) (host : String) : Option Certificate.KeyPair :=
  (c.entries.find? fun e => e.1 = host).map Prod.snd

/-- How many hosts have key pairs. -/
def size (c : LeafCache) : Nat := c.entries.length

/-- A load has succeeded. -/
def count (c : LeafCache) : LeafCache := { c with loads := c.loads + 1 }

/-- The key pair is kept for the host, instead of any other. -/
def put (c : LeafCache) (host : String) (k : Certificate.KeyPair) : LeafCache :=
  { c with entries := (c.entries.filter fun e => e.1 ≠ host) ++ [(host, k)] }

/-- What is certified for a host. -/
def order (host : String) : Certificate.Order := ⟨host, Certificate.organization, false⟩

/-- Loads the key pair of a host, which is given in small letters, or makes it. -/
def load (ca : Certificate.KeyPair) (dir host : String) (w : Certificate.Workshop) :
    Except Error Certificate.KeyPair × Certificate.Workshop :=
  let (result, w) := Certificate.getOrGenerate (leafPaths dir host) (order host) (some ca) w
  (result.mapError (.hostKeyPair host), w)

/-- The key pair of a host: the one in the cache, else a new entry. -/
def get (ca : Certificate.KeyPair) (dir host : String) (c : LeafCache) (w : Certificate.Workshop) :
    Except Error Certificate.KeyPair × LeafCache × Certificate.Workshop :=
  let host := Text.lower host
  match c.find? host with
  | some k => (.ok k, c, w)
  | none =>
    match load ca dir host w with
    | (.ok k, w) => (.ok k, c.count.put host k, w)
    | (.error e, w) => (.error e, c, w)

end LeafCache
end ForwardProxy.Interception
