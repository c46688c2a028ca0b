import ForwardProxy.Certificate.Facts
import ForwardProxy.Interception.Interceptor

/-!
# Key pairs for a rehearsal

A tree of files with the key pairs that a rehearsal starts from: a certificate authority, the pair of
a server that it has signed, the pair of a listener that has signed itself, and leaves of the
authority for a few hosts in a directory of their own.
-/

namespace ForwardProxy.Staging

open Certificate (Order Paths KeyPair Workshop Mint)

/-- The files of a pair, by the role of the pair. -/
def pathsOf (role : String) : Paths := ⟨role ++ "_cert.pem", role ++ "_key.pem"⟩

/-- The files of the certificate authority. -/
def authorityPaths : Paths := pathsOf "ca"

/-- The directory of the leaves. -/
def leafDirectory : String := "hosts"

/-- The hosts that have leaves. -/
def leafHosts : List String := ["site.test", "a.test", "b.test", "127.0.0.1", "localhost", "::1"]

/-- The pair of a role, as loaded from its files. -/
def pairAt (p : Paths) (t : Files.Tree) : KeyPair := ((KeyPair.load p.cert p.key t).toOption).getD ⟨[], [], []⟩

/-- Makes a pair and puts it into its files. -/
def addPair (p : Paths) (o : Order) (parent : Option KeyPair) (w : Workshop) : Workshop :=
  (Certificate.generate p o parent w).2

/-- The certificate authority alone. -/
def authorityProps (m : Mint) : Workshop :=
  addPair authorityPaths Interception.authorityOrder none ⟨{}, m⟩

/-- All pairs. -/
def props (w : Workshop) : Workshop :=
  let ca := some (pairAt authorityPaths w.tree)
  let order (name : String) : Order := ⟨name, Certificate.organization, false⟩
  let w := addPair (pathsOf "origin") (order "secure.test") ca w
  let w := addPair (pathsOf "listener") (order Certificate.listenerName) none w
  leafHosts.foldl (fun w host => addPair (Interception.leafPaths leafDirectory host) (order host) ca w) w

/-! ## What an interceptor finds -/

/-- The pair of a role in the places of an authority. -/
def putAuthority (role : String) (source t : Files.Tree) : Files.Tree :=
  (t.graft source [(pathsOf role).cert] ["ca", "cert.pem"]).graft source [(pathsOf role).key] ["ca", "key.pem"]

/-- A directory for an authority and a file beside it. What is in the directory goes by a name: nothing,
the pair of an authority or that of a server, or the former without its certificate, with another
certificate, or with another key. -/
def surroundings (kind : String) (certificate key : Bytes) (source : Files.Tree) : Files.Tree :=
  let bare := (Files.Tree.write "file" [] (Files.Tree.makeDirectories "ca" {}).2).2
  match kind with
  | "stored" => putAuthority "ca" source bare
  | "leaf" => putAuthority "origin" source bare
  | "no_cert" => (putAuthority "ca" source bare).erase ["ca", "cert.pem"]
  | "bad_der" =>
    let pem := Bytes.ofString (Pem.encode Pem.certificateLabel certificate)
    (Files.Tree.write "ca/cert.pem" pem (putAuthority "ca" source bare)).2
  | "bad_key" => (Files.Tree.write "ca/key.pem" key (putAuthority "ca" source bare)).2
  | _ => bare

/-- The directory of a cache of leaves, with files in it and perhaps the leaves that are at hand. The cache
may instead be given a file. -/
def leafPlace (blocked : Bool) (files : List (String × Bytes)) (leaves : Option Files.Tree) :
    String × Files.Tree :=
  if blocked then ("file", (Files.Tree.write "file" [] {}).2)
  else
    let bare := (Files.Tree.makeDirectories leafDirectory {}).2
    let t := leaves.elim bare fun source => bare.graft source [leafDirectory] [leafDirectory]
    (leafDirectory, files.foldl (fun t f => (Files.Tree.write (leafDirectory ++ "/" ++ f.1) f.2 t).2) t)

/-- The leaves are put to a path, or a file instead if they are to be out of reach. -/
def placeLeaves (source : Files.Tree) (blocked : Bool) (path : String) (t : Files.Tree) : Files.Tree :=
  let place := Files.Tree.names path
  let t := t.prune place
  if blocked then t.set place (.file [] Certificate.publicMode) else t.graft source [leafDirectory] place

end ForwardProxy.Staging
