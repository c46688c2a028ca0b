import ForwardProxy.Certificate.Store

/-!
# Names of leaf files

The certificate of a host and its key are kept in files named after the host. Small letters, digits,
points and hyphens stand for themselves; every other byte of the host becomes an underscore and two
digits in base sixteen, so that different hosts have different names and no name leaves its directory.
-/

namespace ForwardProxy.Interception

/-- The byte stands for itself. -/
def isPlainByte (b : UInt8) : Bool :=
  (97 ≤ b && b ≤ 122) || (48 ≤ b && b ≤ 57) || b == 46 || b == 45

/-- The characters for a byte. -/
def stemOctet (b : UInt8) : List Char :=
  if isPlainByte b then [Char.ofNat b.toNat] else '_' :: Bytes.hexOctet b

/-- The name of a host in files. -/
def stem (host : Bytes) : List Char := host.flatMap stemOctet

/-- The two files of a leaf. -/
inductive LeafFile
  | certificate
  | key
  deriving DecidableEq, Repr

/-- What stands behind the stem. -/
def LeafFile.ending : LeafFile → List Char
  | certificate => "_cert.pem".toList
  | key => "_key.pem".toList

/-- The name of a file of a host. Hosts are told apart without regard to case. -/
def leafName (host : String) (f : LeafFile) : String :=
  String.ofList (stem (Bytes.ofString (Text.lower host)) ++ f.ending)

/-- The files of a host in a directory. -/
def leafPaths (dir host : String) : Certificate.Paths :=
  ⟨Files.Tree.under dir (leafName host .certificate), Files.Tree.under dir (leafName host .key)⟩

end ForwardProxy.Interception
