import ForwardProxy.Proofs.Certificate.Loading
import ForwardProxy.Proofs.Certificate.Minting
import ForwardProxy.Proofs.Certificate.Steps
import ForwardProxy.Proofs.Pem.Torn
import Mathlib.Data.List.Forall2

/-!
# Interrupted saving

A new key pair is saved in several operations, of which any may be the last. The next call looks whether
there is a file of the key. While there is none the key pair is made anew, and all operations are carried
out once more. When the text of the key is there, up to its last line at least, the key pair is loaded. In
between, when the file of the key is there and its text is not, no later call makes or loads a key pair.

* `exists_course`: what saving does, as two stretches with the opening of the key's file between them.
* `stops_cases`: wherever it stops, there is no file of the key yet, or this file holds a part of its text and the
  certificate is there as a whole (`Begun`).
* `exists_load_of_whole`, `exists_load_of_torn`: what the next call reads in the second case.
* `exists_getOrGenerate`: in the first case it makes a key pair, as the operations can be carried out again.
* `interrupted_saving_recovers`: the cases together. `PartlyWritten` is the state that no call comes out of.

## How the proof goes

The certificate is written in front of the key, so the file of the key tells how far saving has come. `Stops.split`
cuts the operations in front of that file. Before the cut, the tree lies between the one at the start and the one
at the end, and a key pair that is made now, with another key and another certificate, is saved by operations that
are like the first ones but for the bytes that they add. Behind the cut, the file holds a part of one block, and what
is read of such a part has been settled for blocks in general.

## Side conditions

`done` says that saving would have succeeded if it had not been stopped; a disk on which it fails anyway promises
nothing to later calls. `apart` keeps the two files from being one. `free` says that there was no file of the key,
which is why the key pair was made. `hm` is what minting gives, and only the loading needs it.
-/

namespace ForwardProxy.Certificate

open Files (Tree Place)
open Files.Tree (AddsDirectories)

variable {p : Paths} {m m' : Minted} {t u v : Tree} {a b : Place}

/-! ## The two files -/

/-- The block of a new certificate. -/
def Minted.certificateBlock (m : Minted) : Pem.Block := ⟨Pem.certificateLabel, m.certificate⟩

/-- The block of a new key. -/
def Minted.keyBlock (m : Minted) : Pem.Block := ⟨Pem.rsaKeyLabel, m.key⟩

/-- Both blocks are known by labels that can be told. -/
theorem Minted.known (m : Minted) : Pem.IsLabel m.certificateBlock.label ∧
    Pem.IsLabel m.keyBlock.label ∧ m.keyBlock.isKnown = true := by
  have all : Pem.IsLabel Pem.certificateLabel ∧ Pem.IsLabel Pem.rsaKeyLabel ∧
      Pem.knownLabels.contains Pem.rsaKeyLabel = true := by decide
  exact all

/-- The operations in front of the file of the key. -/
def frontSteps (p : Paths) (m : Minted) : List FileStep :=
  directoryOf p.cert ++ directoryOf p.key ++
    [.empty p.cert publicMode, .add p.cert m.certificateBlock.text]

/-- The operations on the file of the key. -/
def keySteps (p : Paths) (m : Minted) : List FileStep :=
  [.empty p.key privateMode, .add p.key m.keyBlock.text]

theorem savingSteps_eq (p : Paths) (m : Minted) : savingSteps p m = frontSteps p m ++ keySteps p m := by
  rw [savingSteps, frontSteps, keySteps, List.append_assoc _ [_, _] [_, _]]
  rfl

theorem like_savingSteps (p : Paths) (m m' : Minted) :
    List.Forall₂ FileStep.Like (savingSteps p m) (savingSteps p m') := by
  have directories (path : String) : List.Forall₂ FileStep.Like (directoryOf path) (directoryOf path) := by
    rw [directoryOf]
    split
    · split
      · exact .nil
      · exact .cons (.directory _) .nil
    · exact .nil
  refine List.rel_append (List.rel_append (directories p.cert) (directories p.key)) ?_
  exact .cons (.empty _ _) (.cons (.add _ _ _) (.cons (.empty _ _) (.cons (.add _ _ _) .nil)))

theorem exists_of_mem_directoryOf {path : String} {s : FileStep} (hs : s ∈ directoryOf path) :
    ∃ parent, s = .directory parent := by
  rw [directoryOf] at hs
  split at hs
  · split at hs
    · cases hs
    · exact ⟨_, List.mem_singleton.mp hs⟩
  · cases hs

/-- Operations on directories add directories only, however far they come. -/
theorem addsDirectories_runAll {steps : List FileStep} (only : ∀ s ∈ steps, ∃ parent, s = .directory parent)
    (t : Tree) : t.AddsDirectories (FileStep.runAll steps t).2 := by
  refine FileStep.runAll_keeps (P := t.AddsDirectories) ?_ (.refl t)
  intro s hs u adds
  obtain ⟨parent, rfl⟩ := only s hs
  exact adds.trans (Tree.addsDirectories_makeDirectories parent u)

theorem addsDirectories_directoryOf (path : String) (t : Tree) :
    t.AddsDirectories (FileStep.runAll (directoryOf path) t).2 :=
  addsDirectories_runAll (fun _ => exists_of_mem_directoryOf) t

/-- How a key pair is saved: `mid` is the tree in front of the file of the key, `opened` the tree with this
file when it is empty, and `a` and `b` are the places of the two files. -/
structure Course (p : Paths) (m : Minted) (t mid opened u : Tree) (a b : Place) : Prop where
  front : FileStep.runAll (frontSteps p m) t = (.ok (), mid)
  certPlace : mid.resolve p.cert = .ok a
  cert : ∃ mode, mid.at? a = some (.file m.certificateBlock.text mode)
  keyPlace : mid.resolve p.key = .ok b
  created : Tree.create p.key privateMode mid = (.ok (), opened)
  added : Tree.append p.key m.keyBlock.text opened = (.ok (), u)
  apart : a ≠ b
  /-- Only the certificate is a new file in front of that of the key. -/
  old : ∀ content mode, mid.at? b = some (.file content mode) → t.at? b = some (.file content mode)

theorem exists_course (done : FileStep.runAll (savingSteps p m) t = (.ok (), u))
    (apart : u.resolve p.cert ≠ u.resolve p.key) :
    ∃ mid opened a b, Course p m t mid opened u a b := by
  rw [savingSteps_eq, FileStep.runAll_append_eq_ok_iff] at done
  obtain ⟨mid, front, back⟩ := done
  have started := front
  rw [frontSteps, FileStep.runAll_append_eq_ok_iff] at started
  obtain ⟨t₁, dirs, files⟩ := started
  rw [FileStep.runAll_append_eq_ok_iff] at dirs
  obtain ⟨t₀, certDir, keyDir⟩ := dirs
  obtain ⟨t₂, createCert, files⟩ := FileStep.runAll_cons_eq_ok_iff.mp files
  obtain ⟨t₃, addCert, nothing⟩ := FileStep.runAll_cons_eq_ok_iff.mp files
  obtain rfl : t₃ = mid := congrArg Prod.snd nothing
  obtain ⟨opened, created, back⟩ := FileStep.runAll_cons_eq_ok_iff.mp back
  obtain ⟨t₅, added, nothing⟩ := FileStep.runAll_cons_eq_ok_iff.mp back
  obtain rfl : t₅ = u := congrArg Prod.snd nothing
  rw [FileStep.run_eq_ok_iff] at createCert addCert created added
  have adds : t.AddsDirectories t₁ := by
    have first := addsDirectories_directoryOf p.cert t
    have second := addsDirectories_directoryOf p.key t₀
    rw [certDir] at first
    rw [keyDir] at second
    exact first.trans second
  obtain ⟨a, mode, foundCert, cert, others⟩ := Tree.exists_of_create_append createCert addCert
  obtain ⟨b, -, foundKey, -, -⟩ := Tree.exists_of_create created
  have grownCert := (Tree.within_create createCert).trans (Tree.within_append addCert)
  have grownKey := (Tree.within_create created).trans (Tree.within_append added)
  have certPlace : t₃.resolve p.cert = .ok a := by
    rw [grownCert.resolve (Tree.resolve_ne_notFound foundCert), foundCert]
  have different : a ≠ b := by
    rintro rfl
    apply apart
    rw [grownKey.resolve (Tree.resolve_ne_notFound certPlace),
      grownKey.resolve (Tree.resolve_ne_notFound foundKey), certPlace, foundKey]
  refine ⟨t₃, opened, a, b, front, certPlace, ⟨mode, cert⟩, foundKey, created, added, different, ?_⟩
  intro content mode there
  rw [others b (Ne.symm different)] at there
  exact adds.at?_file there

namespace Course

variable {mid opened : Tree}

theorem within_key (c : Course p m t mid opened u a b) : mid.Within u :=
  (Tree.within_create c.created).trans (Tree.within_append c.added)

theorem within (c : Course p m t mid opened u a b) : t.Within u :=
  (FileStep.within_runAll c.front).trans c.within_key

/-- The place of the key's file is free as long as the file has not been opened. -/
theorem free (c : Course p m t mid opened u a b) (hfree : ∀ q, u.locate p.key = .ok q → t.at? q = none) :
    u.locate p.key = .ok b ∧ mid.at? b = none := by
  have place : u.resolve p.key = .ok b := by
    rw [c.within_key.resolve (Tree.resolve_ne_notFound c.keyPlace), c.keyPlace]
  have direct : u.resolve p.key = u.locate p.key := by
    apply Tree.resolve_eq_locate
    intro q target hq link
    have earlier := c.within.noLinks q target link
    rw [hfree q hq] at earlier
    cases earlier
  have located : u.locate p.key = .ok b := direct ▸ place
  refine ⟨located, ?_⟩
  obtain ⟨q, found, ⟨content, old, there, -⟩ | ⟨absent, -, -⟩⟩ := Tree.create_eq_ok_iff.mp c.created
  all_goals
    rw [c.keyPlace] at found
    obtain rfl := Except.ok.inj found
  · have earlier := c.old content old there
    rw [hfree b located] at earlier
    cases earlier
  · exact absent

end Course

/-! ## What is left behind -/

/-- When the operations on the file of the key have begun, it holds a part of its text, and the
certificate is there. -/
structure Begun (p : Paths) (m : Minted) (v : Tree) (part : Bytes) : Prop where
  cert : Tree.read p.cert v = .ok m.certificateBlock.text
  key : Tree.read p.key v = .ok part
  inText : part <+: m.keyBlock.text

theorem Course.begun {mid opened : Tree} (c : Course p m t mid opened u a b) {part : Bytes}
    (inText : part <+: m.keyBlock.text) {mode : Nat} (grown : mid.Within v)
    (key : v.at? b = some (.file part mode)) (others : ∀ q, q ≠ b → v.at? q = mid.at? q) :
    Begun p m v part := by
  obtain ⟨certMode, cert⟩ := c.cert
  refine ⟨Tree.read_eq_ok_iff.mpr ⟨a, certMode, ?_, ?_⟩, Tree.read_eq_ok_iff.mpr ⟨b, mode, ?_, key⟩, inText⟩
  · rw [grown.resolve (Tree.resolve_ne_notFound c.certPlace), c.certPlace]
  · rw [others a c.apart, cert]
  · rw [grown.resolve (Tree.resolve_ne_notFound c.keyPlace), c.keyPlace]

/-- In the end both files are complete. -/
theorem Course.whole {mid opened : Tree} (c : Course p m t mid opened u a b) :
    Begun p m u m.keyBlock.text := by
  obtain ⟨q, mode, found, there, others⟩ := Tree.exists_of_create_append c.created c.added
  rw [c.keyPlace] at found
  obtain rfl := Except.ok.inj found
  exact c.begun (List.prefix_refl _) c.within_key there others

/-- A key pair whose saving has stopped has no file of its key yet, or this file holds a part of its
text. -/
theorem stops_cases {mid opened : Tree} (c : Course p m t mid opened u a b) (free : mid.at? b = none)
    (stop : FileStep.Stops (savingSteps p m) t v) : v.at? b = none ∨ ∃ part, Begun p m v part := by
  rw [savingSteps_eq] at stop
  rcases stop.split with front | ⟨mid', front, back⟩
  · exact .inl ((front.within c.front).2.at?_none free)
  obtain rfl : mid' = mid := congrArg Prod.snd (front.symm.trans c.front)
  cases back with
  | here => exact .inl free
  | next created back =>
    rename_i opened'
    rw [FileStep.run_eq_ok_iff] at created
    obtain rfl : opened' = opened := congrArg Prod.snd (created.symm.trans c.created)
    obtain ⟨q, mode, found, empty, others⟩ := Tree.exists_of_create c.created
    rw [c.keyPlace] at found
    obtain rfl := Except.ok.inj found
    have filled (part : Bytes) {w : Tree} (added : Tree.append p.key part opened' = (.ok (), w))
        (inText : part <+: m.keyBlock.text) : Begun p m w part := by
      obtain ⟨q, old, found, there, others'⟩ := Tree.exists_of_create_append c.created added
      rw [c.keyPlace] at found
      obtain rfl := Except.ok.inj found
      exact c.begun inText ((Tree.within_create c.created).trans (Tree.within_append added)) there others'
    cases back with
    | here => exact .inr ⟨[], c.begun List.nil_prefix (Tree.within_create c.created) empty others⟩
    | part _ inText added => exact .inr ⟨_, filled _ added inText⟩
    | next added back =>
      rw [FileStep.run_eq_ok_iff] at added
      cases back
      exact .inr ⟨_, filled _ added (List.prefix_refl _)⟩

/-! ## The next call -/

/-- The certificate is for the key, and the key is wrapped. -/
def KeyPair.BelongsTogether (k : KeyPair) : Prop :=
  ∃ (content : Content) (signer key : Rsa.Numbers), k.certificate = content.sign signer ∧
    content.key = key.publicKey ∧ Rsa.wrap key.write = .ok k.key

theorem certificates_certificateBlock (m : Minted) (path : String) :
    KeyPair.certificates path m.certificateBlock.text = .ok [m.certificate] := by
  have text : m.certificateBlock.text = Pem.write [m.certificateBlock] := by
    rw [Pem.write, List.flatMap_singleton]
  rw [text, KeyPair.certificates_write (by simpa using m.known.1)]
  rfl

/-- A key pair is loaded whose certificate and key are there, but perhaps for the last line feed. -/
theorem exists_load_of_whole {issuer : Issuer} {part : Bytes} (hm : m.By issuer) (begun : Begun p m t part)
    (whole : m.keyBlock.text.length ≤ part.length + 1) :
    ∃ k, KeyPair.load p.cert p.key t = .ok k ∧ k.BelongsTogether := by
  obtain ⟨content, key, -, hkey, hcert, hwrite⟩ := hm.certified
  obtain ⟨w, hw⟩ := hm.wrapped
  have found : Pem.read part = ⟨[m.keyBlock], true⟩ :=
    Pem.read_lastLine m.known.2.1 m.known.2.2 begun.inText whole
  have holds : KeyPair.HoldsKey m.keyBlock w := .plain rfl hw
  have loaded : KeyPair.privateKey p.key part = .ok w := by
    have first : [m.keyBlock].find? (fun b => KeyPair.keyLabels.contains b.label) = some m.keyBlock := by
      simp only [List.find?_cons, List.contains_iff_mem.mpr holds.mem_keyLabels]
    simp only [KeyPair.privateKey, found, first, holds.keyOf]
  refine ⟨⟨m.certificate, [], w⟩, ?_, content, issuer.key, key, hcert, hkey, hwrite ▸ hw⟩
  rw [KeyPair.load, begun.cert, begun.key]
  simp only [KeyPair.ofContents, certificates_certificateBlock, bind, Except.bind, loaded]
  rfl

theorem exists_load_of_torn {part : Bytes} (begun : Begun p m t part)
    (torn : part.length + 1 < m.keyBlock.text.length) : ∃ e, KeyPair.load p.cert p.key t = .error e := by
  have nothing := Pem.blocks_read_torn m.known.2.1 begun.inText torn
  obtain ⟨e, failed⟩ : ∃ e, KeyPair.privateKey p.key part = .error e := by
    simp only [KeyPair.privateKey, nothing, List.find?_nil]
    split <;> exact ⟨_, rfl⟩
  refine ⟨e, ?_⟩
  rw [KeyPair.load, begun.cert, begun.key]
  simp only [KeyPair.ofContents, certificates_certificateBlock, bind, Except.bind, failed]

/-- The file of the key is there, and its text is not, or its last line is not whole. -/
def PartlyWritten (p : Paths) (m : Minted) (t : Tree) : Prop :=
  ∃ part, Tree.read p.key t = .ok part ∧ part.length + 1 < m.keyBlock.text.length

/-- What the next calls do for the two paths, after the saving of a key pair has stopped. -/
structure Recovery (p : Paths) (m : Minted) (t : Tree) : Prop where
  /-- A key pair is made anew or loaded, unless no new one can be minted. -/
  recovers : ¬ PartlyWritten p m t → ∀ o parent mint, (∃ m', (Certificate.mint o parent mint).1 = .ok m') →
    ∃ k w, getOrGenerate p o parent ⟨t, mint⟩ = (.ok k, w) ∧ k.BelongsTogether
  /-- Every call fails and leaves everything as it is. -/
  stuck : PartlyWritten p m t → ∀ o parent mint,
    ∃ e, getOrGenerate p o parent ⟨t, mint⟩ = (.error e, ⟨t, mint⟩)

theorem getOrGenerate_of_look {o : Order} {parent : Option KeyPair} {w : Workshop}
    (h : Tree.look p.key w.tree = .ok ()) :
    getOrGenerate p o parent w = (KeyPair.load p.cert p.key w.tree, w) := by
  rw [getOrGenerate, h]

/-- A key pair is made anew in a tree in which another one could have been saved. -/
theorem exists_getOrGenerate {o : Order} {parent : Option KeyPair} {mint : Mint}
    (minted : (Certificate.mint o parent mint).1 = .ok m')
    (done : FileStep.runAll (savingSteps p m) t = (.ok (), u)) (apart : u.resolve p.cert ≠ u.resolve p.key)
    (low : t.Within v) (high : v.Within u) (missing : Tree.look p.key v = .error .notFound) :
    ∃ k w, getOrGenerate p o parent ⟨v, mint⟩ = (.ok k, w) ∧ k.BelongsTogether := by
  obtain ⟨w, again, grown, -⟩ := FileStep.runAll_again (like_savingSteps p m m') done low high (.refl u)
  obtain ⟨mid, opened, a, b, course⟩ := exists_course done apart
  have apartAgain : w.resolve p.cert ≠ w.resolve p.key := by
    have certPlace := (course.within_key.trans grown).resolve (Tree.resolve_ne_notFound course.certPlace)
    have keyPlace := (course.within_key.trans grown).resolve (Tree.resolve_ne_notFound course.keyPlace)
    rw [certPlace, keyPlace, course.certPlace, course.keyPlace]
    exact fun same => course.apart (Except.ok.inj same)
  obtain ⟨mid', opened', a', b', course'⟩ := exists_course again apartAgain
  obtain ⟨issuer, -, made⟩ := minted_by minted
  obtain ⟨k, loaded, together⟩ := exists_load_of_whole made course'.whole (Nat.le_succ _)
  rcases mints : Certificate.mint o parent mint with ⟨result, mint'⟩
  rw [mints] at minted
  dsimp only at minted
  refine ⟨k, ⟨w, mint'⟩, ?_, together⟩
  simp only [getOrGenerate, missing, generate, mints, minted, again, loaded]

/-- The saving of a key pair can be made up for, unless it has stopped while the key was written. -/
theorem interrupted_saving_recovers {issuer : Issuer} (hm : m.By issuer)
    (done : FileStep.runAll (savingSteps p m) t = (.ok (), u)) (apart : u.resolve p.cert ≠ u.resolve p.key)
    (free : ∀ q, u.locate p.key = .ok q → t.at? q = none) (stop : FileStep.Stops (savingSteps p m) t v) :
    Recovery p m v := by
  obtain ⟨mid, opened, a, b, course⟩ := exists_course done apart
  obtain ⟨located, hmid⟩ := course.free free
  obtain ⟨low, high⟩ := stop.within done
  rcases stops_cases course hmid stop with absent | ⟨part, begun⟩
  · -- there is no file of the key, and everything is done once more
    have unread : ¬ PartlyWritten p m v := by
      rintro ⟨part, read, -⟩
      obtain ⟨q, mode, found, there⟩ := Tree.read_eq_ok_iff.mp read
      rw [← high.resolve (Tree.resolve_ne_notFound found), course.within_key.resolve
        (Tree.resolve_ne_notFound course.keyPlace), course.keyPlace] at found
      obtain rfl := Except.ok.inj found
      rw [absent] at there
      cases there
    have missing : Tree.look p.key v = .error .notFound := Tree.look_eq_notFound high located absent
    refine ⟨fun _ o parent mint minted => ?_, fun partly => absurd partly unread⟩
    obtain ⟨m', minted⟩ := minted
    exact exists_getOrGenerate minted done apart low high missing
  · have seen : Tree.look p.key v = .ok () := Tree.look_of_read begun.key
    refine ⟨fun whole o parent mint _ => ?_, fun partly o parent mint => ?_⟩
    · obtain ⟨k, loaded, together⟩ := exists_load_of_whole hm begun
        (Nat.le_of_not_lt fun torn => whole ⟨part, begun.key, torn⟩)
      exact ⟨k, ⟨v, mint⟩, by rw [getOrGenerate_of_look seen, loaded], together⟩
    · obtain ⟨part', read, torn⟩ := partly
      obtain rfl : part = part' := Except.ok.inj (begun.key.symm.trans read)
      obtain ⟨e, failed⟩ := exists_load_of_torn begun torn
      exact ⟨e, by rw [getOrGenerate_of_look seen, failed]⟩

/-! ## A key that is not written -/

/-- Two files in the directory at hand. -/
def twoFiles : Paths := ⟨"cert.pem", "key.pem"⟩

/-- An issuer with a key of ones. -/
def onesIssuer : Issuer := ⟨[(commonNameOid, "ca")], ⟨1, 1, 1, 1, 1, 1, 1, 1⟩⟩

/-- A certificate of that issuer for its own key. -/
def onesPair : Minted :=
  ⟨Content.sign ⟨[1], onesIssuer.name, 0, 0, onesIssuer.name, onesIssuer.key.publicKey, []⟩ onesIssuer.key,
    onesIssuer.key.write⟩

theorem onesPair_by : onesPair.By onesIssuer where
  certified := ⟨_, onesIssuer.key, rfl, rfl, rfl, rfl⟩
  wrapped := by
    have fits : onesIssuer.key.Fits 1 := by
      intro n hn
      simp only [onesIssuer, List.mem_cons, List.not_mem_nil, or_false, or_self] at hn
      rw [hn]
      decide
    exact Rsa.Numbers.exists_wrap_of_fits fits (by decide)

/-- The operations on two files in an empty directory. -/
theorem runAll_twoFiles (x y : Bytes) :
    FileStep.runAll [.empty twoFiles.cert publicMode, .add twoFiles.cert x, .empty twoFiles.key privateMode,
        .add twoFiles.key y] {} =
      (.ok (), ⟨[(["cert.pem"], .file x publicMode), (["key.pem"], .file y privateMode)]⟩) ∧
    FileStep.Stops [.empty twoFiles.cert publicMode, .add twoFiles.cert x, .empty twoFiles.key privateMode,
        .add twoFiles.key y] {}
      ⟨[(["cert.pem"], .file x publicMode), (["key.pem"], .file [] privateMode)]⟩ :=
  ⟨rfl, .next rfl (.next rfl (.next rfl (.here _ _)))⟩

theorem interrupted_saving_recovers_opened :
    ∃ v, FileStep.Stops (savingSteps twoFiles onesPair) {} v ∧ PartlyWritten twoFiles onesPair v ∧
      Recovery twoFiles onesPair v := by
  have steps : savingSteps twoFiles onesPair = [.empty twoFiles.cert publicMode,
      .add twoFiles.cert onesPair.certificateBlock.text, .empty twoFiles.key privateMode,
      .add twoFiles.key onesPair.keyBlock.text] := by
    have here : directoryOf twoFiles.cert = [] ∧ directoryOf twoFiles.key = [] := by decide
    rw [savingSteps_eq, frontSteps, here.1, here.2]
    rfl
  obtain ⟨done, opened⟩ := runAll_twoFiles onesPair.certificateBlock.text onesPair.keyBlock.text
  rw [← steps] at done opened
  refine ⟨_, opened, ⟨[], rfl, ?_⟩, interrupted_saving_recovers onesPair_by done (by decide) ?_ opened⟩
  · rw [Pem.Block.text_eq]
    simp only [List.length_append, List.length_cons, List.length_nil]
    omega
  · intro q hq
    obtain rfl := Except.ok.inj hq
    rfl

end ForwardProxy.Certificate
