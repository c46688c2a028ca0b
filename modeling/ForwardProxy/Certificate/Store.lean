import ForwardProxy.Certificate.Minting

/-!
# Key pairs on disk

A key pair is kept in two files and made only when there is nothing at all under the path of its key.
Making one is a list of operations on files, so that the state left behind by a failure or by the end
of the process at any point is a state of this module: the operations in front of that point, and of
a write any part.
-/

namespace ForwardProxy.Certificate

/-! ## Operations on files -/

/-- One operation on files. -/
inductive FileStep
  /-- A directory is there, and those on the way to it. -/
  | directory (path : String)
  /-- A file is there and empty; a new one has the given mode. -/
  | empty (path : String) (mode : Nat)
  /-- Bytes stand at the end of a file. -/
  | add (path : String) (bytes : Bytes)
  deriving DecidableEq, Repr

namespace FileStep

/-- The path that a failure is reported for. -/
def path : FileStep → String
  | directory p => p
  | empty p _ => p
  | add p _ => p

/-- What the operation does in a tree. -/
def action : FileStep → Files.Tree.Action Unit
  | directory p => Files.Tree.makeDirectories p
  | empty p mode => Files.Tree.create p mode
  | add p bytes => Files.Tree.append p bytes

/-- Carries out the operation. -/
def run (s : FileStep) (t : Files.Tree) : Except Error Unit × Files.Tree :=
  let (result, t) := s.action t
  (result.mapError fun f => .io s.path (.system f), t)

/-- Carries out operations up to the first that fails. -/
def runAll : List FileStep → Files.Tree → Except Error Unit × Files.Tree
  | [], t => (.ok (), t)
  | s :: rest, t =>
    match s.run t with
    | (.ok _, t) => runAll rest t
    | (.error e, t) => (.error e, t)

end FileStep

/-! ## Saving and loading -/

/-- Two files: of a certificate and of its key. -/
structure Paths where
  cert : String
  key : String
  deriving DecidableEq, Repr

/-- The mode of files that anyone may read. -/
def publicMode : Nat := 0o644

/-- The mode of files that only their owner may read. -/
def privateMode : Nat := 0o600

/-- The directory of a file, unless that is the directory at hand. -/
def directoryOf (path : String) : List FileStep :=
  match Files.Tree.parent? path with
  | some parent => if parent.isEmpty then [] else [.directory parent]
  | none => []

/-- The operations that save a new key pair: the two directories, the certificate, and then the
key. -/
def savingSteps (p : Paths) (m : Minted) : List FileStep :=
  directoryOf p.cert ++ directoryOf p.key ++
    [.empty p.cert publicMode,
      .add p.cert (Bytes.ofString (Pem.encode Pem.certificateLabel m.certificate)),
      .empty p.key privateMode,
      .add p.key (Bytes.ofString (Pem.encode Pem.rsaKeyLabel m.key))]

/-- The files and the mint of a process. -/
structure Workshop where
  tree : Files.Tree
  mint : Mint
  deriving DecidableEq, Repr

/-- Makes a key pair and saves it. -/
def generate (p : Paths) (o : Order) (parent : Option KeyPair) (w : Workshop) :
    Except Error Unit × Workshop :=
  match Certificate.mint o parent w.mint with
  | (.error e, mint) => (.error e, { w with mint })
  | (.ok minted, mint) =>
    let (result, tree) := FileStep.runAll (savingSteps p minted) w.tree
    (result, ⟨tree, mint⟩)

/-- Makes a key pair, unless there is anything under the path of its key, and loads what is
there. -/
def getOrGenerate (p : Paths) (o : Order) (parent : Option KeyPair) (w : Workshop) :
    Except Error KeyPair × Workshop :=
  match Files.Tree.look p.key w.tree with
  | .ok _ => (KeyPair.load p.cert p.key w.tree, w)
  | .error .notFound =>
    match generate p o parent w with
    | (.error e, w) => (.error e, w)
    | (.ok _, w) => (KeyPair.load p.cert p.key w.tree, w)
  | .error f => (.error (.io p.key (.system f)), w)

end ForwardProxy.Certificate
