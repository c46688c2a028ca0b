import ForwardProxy.Proofs.Certificate.Obtaining

/-!
# Key pairs that are there are used

What stands under the path of a key is looked at before anything else. Whatever it is, a call loads it or
fails, and writes nothing. Where nothing stands, a key pair is minted before the first directory is made, so
that a call that cannot mint one leaves the files alone as well, and one that stops in front of its first file
leaves directories at most. A key pair that has been returned has been loaded from the two files, and is
loaded from them again.

* `mint_eq_error_iff`: when no key pair is minted.
* `getOrGenerateBy_unseen`, `getOrGenerateBy_unminted`, `getOrGenerateBy_of_directories`: the three ways in which a
  call ends before it has opened a file, in the order in which it comes to them.
* `getOrGenerate_again`: calls on files that have not changed.
* `key_pairs_are_reused`: all of it, for any paths and any workshop.

`getOrGenerateBy` takes the look at the key and the minting as parameters. The trees here know no rights, and the
mint does not run out of random bytes; with these parameters, what a call does when it is refused the look, or when
it has no bytes, is stated without a model of either. `getOrGenerate_eq` says that the call itself is the case of the
look and the mint that there are.

An entry under the path of the key need not be a file. A directory or a link that leads nowhere keeps a key pair from
being made all the same, and then the loading fails.
-/

namespace ForwardProxy.Certificate

open Files (Tree Place Entry)

variable {p : Paths} {o : Order} {parent : Option KeyPair} {w : Workshop} {m : Mint}

/-! ## When nothing is minted -/

theorem Order.altName_eq_error_iff : (∃ e, o.altName = .error e) ↔
    ∃ name, Tls.AltName.ofString o.commonName = .dns name ∧ ∃ c ∈ name.toList, 0x80 ≤ c.toNat := by
  rw [Order.altName]
  split
  · rename_i a named
    simp [named]
  · rename_i name named
    simp only [named, Tls.AltName.dns.injEq, exists_eq_left']
    split
    · rename_i ascii
      simpa using ascii
    · rename_i other
      simpa using other

/-- No key pair is minted if no key is found, if the host cannot be named or if the parent cannot issue. -/
theorem mint_eq_error_iff : (∃ e, (Certificate.mint o parent m).1 = .error e) ↔
    (Rsa.Numbers.generate (m.entropy.bytes serialBytes).2).1 = none ∨
      (o.authority = false ∧ ∃ e, o.altName = .error e) ∨ ∃ q ∈ parent, ∃ e, q.issuer = .error e := by
  rw [Certificate.mint]
  rcases found : Rsa.Numbers.generate (m.entropy.bytes serialBytes).2 with ⟨_ | key, entropy⟩
  · simp [found]
  simp only [found, reduceCtorEq, false_or]
  cases authority : o.authority with
  | true =>
    cases parent with
    | none => simp [Order.extensions, authority]
    | some q =>
      cases issuer : q.issuer <;>
        simp [Order.extensions, authority, issuer, bind, Except.bind, pure, Except.pure]
  | false =>
    cases name : o.altName with
    | error e => simp [bind, Except.bind]
    | ok name' =>
      cases parent with
      | none => simp [Order.extensions, authority, name, bind, Except.bind, pure, Except.pure]
      | some q =>
        cases issuer : q.issuer <;>
          simp [Order.extensions, authority, name, issuer, bind, Except.bind, pure, Except.pure]

/-! ## Calls -/

variable {looks : Tree → Except Files.Fault Unit} {mints : Mint → Except Error Minted × Mint}

/-- As `generate`, with a key pair that is minted in any way, which may fail in any way. -/
def generateBy (mints : Mint → Except Error Minted × Mint) (p : Paths) (w : Workshop) :
    Except Error Unit × Workshop :=
  match mints w.mint with
  | (.error e, mint) => (.error e, { w with mint })
  | (.ok minted, mint) =>
    let (result, tree) := FileStep.runAll (savingSteps p minted) w.tree
    (result, ⟨tree, mint⟩)

/-- As `getOrGenerate`, with any way of looking for the key and of minting a key pair. -/
def getOrGenerateBy (looks : Tree → Except Files.Fault Unit) (mints : Mint → Except Error Minted × Mint)
    (p : Paths) (w : Workshop) : Except Error KeyPair × Workshop :=
  match looks w.tree with
  | .ok _ => (KeyPair.load p.cert p.key w.tree, w)
  | .error .notFound =>
    match generateBy mints p w with
    | (.error e, w) => (.error e, w)
    | (.ok _, w) => (KeyPair.load p.cert p.key w.tree, w)
  | .error f => (.error (.io p.key (.system f)), w)

theorem getOrGenerate_eq (p : Paths) (o : Order) (parent : Option KeyPair) (w : Workshop) :
    getOrGenerate p o parent w = getOrGenerateBy (Tree.look p.key) (Certificate.mint o parent) p w := rfl

/-- A call that does not know whether the key is there does nothing. -/
theorem getOrGenerateBy_unseen {fault : Files.Fault} (failed : looks w.tree = .error fault)
    (known : fault ≠ .notFound) : getOrGenerateBy looks mints p w = (.error (.io p.key (.system fault)), w) := by
  rw [getOrGenerateBy, failed]
  cases fault <;> first | rfl | exact absurd rfl known

/-- A call that cannot mint a key pair leaves the files alone. -/
theorem getOrGenerateBy_unminted {e : Error} {mint : Mint} (missing : looks w.tree = .error .notFound)
    (failed : mints w.mint = (.error e, mint)) : getOrGenerateBy looks mints p w = (.error e, ⟨w.tree, mint⟩) := by
  rw [getOrGenerateBy, missing, generateBy, failed]

/-- A call that cannot make the directories has made directories at most. -/
theorem getOrGenerateBy_of_directories {minted : Minted} {mint : Mint} {e : Error} {t : Tree}
    (missing : looks w.tree = .error .notFound) (made : mints w.mint = (.ok minted, mint))
    (stopped : FileStep.runAll (directoryOf p.cert ++ directoryOf p.key) w.tree = (.error e, t)) :
    getOrGenerateBy looks mints p w = (.error e, ⟨t, mint⟩) ∧ w.tree.AddsDirectories t := by
  constructor
  · rw [getOrGenerateBy, missing, generateBy, made]
    dsimp only
    rw [savingSteps, FileStep.runAll_append, stopped]
  · have only : ∀ s ∈ directoryOf p.cert ++ directoryOf p.key, ∃ parent, s = .directory parent := by
      intro s hs
      rcases List.mem_append.mp hs with hs | hs
      · exact exists_of_mem_directoryOf hs
      · exact exists_of_mem_directoryOf hs
    have adds := addsDirectories_runAll only w.tree
    rwa [stopped] at adds

theorem look_of_at? {place : Place} {entry : Entry} (found : w.tree.locate p.key = .ok place)
    (there : w.tree.at? place = some entry) : Tree.look p.key w.tree = .ok () := by
  rw [Tree.look, found]
  simp [there]

/-- A key pair that has been returned is returned again as long as its two files can be read as they are now. -/
theorem getOrGenerate_again {k : KeyPair} {w' : Workshop} (first : getOrGenerate p o parent w = (.ok k, w'))
    {t : Tree} (cert : Tree.read p.cert t = Tree.read p.cert w'.tree)
    (key : Tree.read p.key t = Tree.read p.key w'.tree) (o' : Order) (parent' : Option KeyPair) (mint : Mint) :
    getOrGenerate p o' parent' ⟨t, mint⟩ = (.ok k, ⟨t, mint⟩) := by
  have loaded := (getOrGenerate_cases p o parent w).2 k (by rw [first])
  rw [first] at loaded
  have again : KeyPair.load p.cert p.key t = .ok k :=
    KeyPair.load_of_read loaded (fun _ read => cert.trans read) (fun _ read => key.trans read)
  rw [getOrGenerate_of_look (KeyPair.look_of_load again), again]

/-- What calls for the paths `p` do in the workshop `w`. -/
structure Reuse (p : Paths) (w : Workshop) : Prop where
  /-- With any entry under the path of the key, the key pair is loaded and nothing is written, whatever is
  asked for. -/
  present : ∀ place entry, w.tree.locate p.key = .ok place → w.tree.at? place = some entry →
    ∀ o parent, getOrGenerate p o parent w = (KeyPair.load p.cert p.key w.tree, w)
  /-- Unless it is certain that there is no entry, nothing is made. -/
  unseen : ∀ fault, Tree.look p.key w.tree = .error fault → fault ≠ .notFound →
    ∀ o parent, getOrGenerate p o parent w = (.error (.io p.key (.system fault)), w)
  /-- Without a new key pair, nothing is made. -/
  unminted : ∀ o parent e, Tree.look p.key w.tree = .error .notFound →
    (Certificate.mint o parent w.mint).1 = .error e →
      getOrGenerate p o parent w = (.error e, ⟨w.tree, (Certificate.mint o parent w.mint).2⟩)
  /-- What keeps a new key pair from being minted. -/
  refused : ∀ o parent, (∃ e, (Certificate.mint o parent w.mint).1 = .error e) ↔
    (Rsa.Numbers.generate (w.mint.entropy.bytes serialBytes).2).1 = none ∨
      (o.authority = false ∧ ∃ name, Tls.AltName.ofString o.commonName = .dns name ∧
        ∃ c ∈ name.toList, 0x80 ≤ c.toNat) ∨
      ∃ q ∈ parent, ∃ e, q.issuer = .error e
  /-- A call looks for the key and mints a key pair. -/
  looking : ∀ o parent,
    getOrGenerate p o parent w = getOrGenerateBy (Tree.look p.key) (Certificate.mint o parent) p w
  /-- It would be the same if looking failed for another reason, such as a want of rights, or minting, such as
  a want of random bytes. -/
  failing : ∀ looks mints, (∀ fault, looks w.tree = .error fault → fault ≠ .notFound →
      getOrGenerateBy looks mints p w = (.error (.io p.key (.system fault)), w)) ∧
    ∀ e mint, looks w.tree = .error .notFound → mints w.mint = (.error e, mint) →
      getOrGenerateBy looks mints p w = (.error e, ⟨w.tree, mint⟩)
  /-- Without its directories, no file is made. -/
  directories : ∀ looks mints minted mint e t, looks w.tree = .error .notFound →
    mints w.mint = (.ok minted, mint) →
    FileStep.runAll (directoryOf p.cert ++ directoryOf p.key) w.tree = (.error e, t) →
      getOrGenerateBy looks mints p w = (.error e, ⟨t, mint⟩) ∧ w.tree.AddsDirectories t
  /-- What has been returned is returned by every later call on the same files, whatever is asked for. -/
  again : ∀ o parent k w', getOrGenerate p o parent w = (.ok k, w') →
    ∀ t, Tree.read p.cert t = Tree.read p.cert w'.tree → Tree.read p.key t = Tree.read p.key w'.tree →
      ∀ o' parent' mint, getOrGenerate p o' parent' ⟨t, mint⟩ = (.ok k, ⟨t, mint⟩)

/-- Files of a key pair are read and not written again. -/
theorem key_pairs_are_reused (p : Paths) (w : Workshop) : Reuse p w where
  present _ _ found there _ _ := getOrGenerate_of_look (look_of_at? found there)
  unseen _ failed known _ _ := getOrGenerateBy_unseen failed known
  unminted _ _ _ missing failed := getOrGenerateBy_unminted missing (Prod.ext failed rfl)
  refused o parent := by rw [mint_eq_error_iff, Order.altName_eq_error_iff]
  looking o parent := getOrGenerate_eq p o parent w
  failing _ _ := ⟨fun _ => getOrGenerateBy_unseen, fun _ _ => getOrGenerateBy_unminted⟩
  directories _ _ _ _ _ _ missing made stopped := getOrGenerateBy_of_directories missing made stopped
  again _ _ _ _ first _ cert key o' parent' mint := getOrGenerate_again first cert key o' parent' mint

/-- A stored key pair is returned by every call, and so it is behind any of them. -/
theorem key_pairs_are_reused_stored : ∃ (t : Tree) (k : KeyPair), ∀ o parent mint,
    getOrGenerate twoFiles o parent ⟨t, mint⟩ = (.ok k, ⟨t, mint⟩) ∧
      ∀ u, Tree.read twoFiles.cert u = Tree.read twoFiles.cert t → Tree.read twoFiles.key u = Tree.read twoFiles.key t →
        ∀ o' parent' mint', getOrGenerate twoFiles o' parent' ⟨u, mint'⟩ = (.ok k, ⟨u, mint'⟩) := by
  let t : Tree := ⟨[(["cert.pem"], .file onesPair.certificateBlock.text publicMode),
    (["key.pem"], .file onesPair.keyBlock.text privateMode)]⟩
  have stored : Begun twoFiles onesPair t onesPair.keyBlock.text := ⟨rfl, rfl, List.prefix_refl _⟩
  obtain ⟨k, loaded, -⟩ := exists_load_of_whole onesPair_by stored (Nat.le_succ _)
  refine ⟨t, k, fun o parent mint => ?_⟩
  have reuse := key_pairs_are_reused twoFiles ⟨t, mint⟩
  have first : getOrGenerate twoFiles o parent ⟨t, mint⟩ = (.ok k, ⟨t, mint⟩) := by
    rw [reuse.present ["key.pem"] _ rfl rfl o parent, loaded]
  exact ⟨first, reuse.again o parent k _ first⟩

-- A link that leads nowhere is an entry, so that no key pair is made.
example (o : Order) (parent : Option KeyPair) (mint : Mint) :
    getOrGenerate ⟨"cert.pem", "key.pem"⟩ o parent ⟨⟨[(["key.pem"], .link "gone")]⟩, mint⟩ =
      (.error (.io "cert.pem" (.system .notFound)), ⟨⟨[(["key.pem"], .link "gone")]⟩, mint⟩) :=
  rfl

end ForwardProxy.Certificate
