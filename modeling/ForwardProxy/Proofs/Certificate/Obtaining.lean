import ForwardProxy.Proofs.Certificate.Saving
import ForwardProxy.Proofs.Files.Linkless

/-!
# What a call for a key pair changes

In a tree without links, a call for a key pair changes the two files of its paths and no others, whether
or not it succeeds. A certificate that it writes is issued by the parent and written as a whole. Nothing
is changed when there is a file of the key, and then nobody asks who has issued the certificate.

* `FileStep.changesAt_runAll`: operations change the files that they name. The induction is on the operations; what
  one of them changes it changes also if it fails, so a failure needs no case of its own.
* `cert_of_savingSteps`: the file of the certificate is as it was, or holds the new one as a whole. To a file that has
  been opened bytes can always be added, so nothing stops between the two.
* `writes_generate`, `writes_getOrGenerate`: a call, by `Writes`.
* `KeyPair.load_of_changesAt`: a key pair in other files is loaded as before.
* `KeyPair.issuedBy_of_load`: who has issued a key pair is told from the certificate that was saved.

## Side conditions

`Linkless` is what makes a path stand for one file. `place p.cert ≠ place p.key` is asked for the certificate: if both
paths led to one file, the key would be written over it. A process that ends in the middle of a call is not considered
here; then a part of a certificate may be left, which is the subject of interrupted saving.
-/

namespace ForwardProxy.Files.Tree

variable {t s : Tree} {path : String} {mode : Nat}

/-- To a file that has been opened bytes can be added. -/
theorem exists_append_of_create (created : create path mode t = (.ok (), s)) (bytes : Bytes) :
    ∃ u, append path bytes s = (.ok (), u) := by
  obtain ⟨p, old, led, there, -⟩ := exists_of_create created
  refine ⟨_, append_eq_ok_iff.mpr ⟨p, [], old, ?_, there, rfl⟩⟩
  rw [(within_create created).resolve (resolve_ne_notFound led), led]

end ForwardProxy.Files.Tree

namespace ForwardProxy.Certificate

open Files (Tree Place)
open Files.Tree (AddsDirectories ChangesAt Linkless place)

variable {p : Paths} {m : Minted} {t u : Tree} {ps : List Place} {k ca : KeyPair} {cert : Bytes}

/-! ## Changed files -/

namespace FileStep

/-- The files that the operation changes. -/
def changed : FileStep → List String
  | directory _ => []
  | empty path _ => [path]
  | add path _ => [path]

variable {s : FileStep} {steps : List FileStep}

theorem changesAt_run (links : t.Linkless) (hs : ∀ path ∈ s.changed, place path ∈ ps) :
    t.Within (s.run t).2 ∧ ChangesAt ps t (s.run t).2 := by
  have idle : t.Within t ∧ ChangesAt ps t t := ⟨.refl t, fun _ _ => .inl rfl⟩
  have other {path : String} {r : Place} (here : s.changed = [path]) (led : t.resolve path = .ok r)
      (same : ∀ q, q ≠ r → (s.run t).2.at? q = t.at? q) : ChangesAt ps t (s.run t).2 := by
    intro q hq
    refine .inl (same q ?_)
    rintro rfl
    refine hq (links.resolve_eq led ▸ hs path ?_)
    rw [here]
    exact List.mem_singleton_self path
  rw [snd_run] at other ⊢
  cases s with
  | directory path =>
    have adds := Tree.addsDirectories_makeDirectories path t
    exact ⟨adds.within, adds.changesAt ps⟩
  | empty path mode =>
    dsimp only [action] at other ⊢
    rcases made : Tree.create path mode t with ⟨f | _, t'⟩
    · have same := Tree.snd_create_of_error (congrArg Prod.fst made)
      rw [made] at same
      rwa [same]
    · obtain ⟨r, old, led, -, same⟩ := Tree.exists_of_create made
      rw [made] at other
      exact ⟨Tree.within_create made, other rfl led same⟩
  | add path bytes =>
    dsimp only [action] at other ⊢
    rcases made : Tree.append path bytes t with ⟨f | _, t'⟩
    · have same := Tree.snd_append_of_error (congrArg Prod.fst made)
      rw [made] at same
      rwa [same]
    · obtain ⟨r, content, old, led, -, -, same⟩ := Tree.exists_of_append made
      rw [made] at other
      exact ⟨Tree.within_append made, other rfl led same⟩

theorem changesAt_runAll (links : t.Linkless)
    (hs : ∀ s ∈ steps, ∀ path ∈ s.changed, place path ∈ ps) :
    t.Within (runAll steps t).2 ∧ ChangesAt ps t (runAll steps t).2 := by
  refine runAll_keeps (P := fun u => t.Within u ∧ ChangesAt ps t u) ?_ ⟨.refl t, fun _ _ => .inl rfl⟩
  rintro s mem u ⟨grown, changes⟩
  have more := changesAt_run (links.within grown) (hs s mem)
  exact ⟨grown.trans more.1, changes.trans more.2⟩

end FileStep

theorem changed_savingSteps {s : FileStep} (hs : s ∈ savingSteps p m) {path : String}
    (hpath : path ∈ s.changed) : place path ∈ [place p.cert, place p.key] := by
  simp only [savingSteps, List.mem_append, List.mem_cons, List.not_mem_nil, or_false] at hs
  rcases hs with (hs | hs) | rfl | rfl | rfl | rfl
  · obtain ⟨parent, rfl⟩ := exists_of_mem_directoryOf hs
    cases hpath
  · obtain ⟨parent, rfl⟩ := exists_of_mem_directoryOf hs
    cases hpath
  all_goals
    rw [List.mem_singleton.mp hpath]
    simp

theorem addsDirectories_directoriesOf (p : Paths) (t : Tree) :
    t.AddsDirectories (FileStep.runAll (directoryOf p.cert ++ directoryOf p.key) t).2 := by
  have certDir := addsDirectories_directoryOf p.cert t
  rw [FileStep.runAll_append]
  rcases made : FileStep.runAll (directoryOf p.cert) t with ⟨_ | _, t'⟩ <;> rw [made] at certDir
  · exact certDir
  · exact certDir.trans (addsDirectories_directoryOf p.key t')

/-- Either the certificate has not been touched, or it is there as a whole. -/
theorem cert_of_savingSteps (links : t.Linkless) (apart : place p.cert ≠ place p.key) :
    t.AddsDirectories (FileStep.runAll (savingSteps p m) t).2 ∨ ∃ mode,
      (FileStep.runAll (savingSteps p m) t).2.at? (place p.cert) = some (.file m.certificateBlock.text mode) := by
  have adds := addsDirectories_directoriesOf p t
  rw [savingSteps, FileStep.runAll_append]
  rcases dirs : FileStep.runAll (directoryOf p.cert ++ directoryOf p.key) t with ⟨_ | _, t₁⟩ <;>
    rw [dirs] at adds
  · exact .inl adds
  dsimp only
  rw [FileStep.runAll_cons]
  rcases created : Tree.create p.cert publicMode t₁ with ⟨f | _, t₂⟩
  · -- the file could not be opened
    have same := Tree.snd_create_of_error (congrArg Prod.fst created)
    rw [FileStep.run, FileStep.action, created]
    rw [created] at same
    exact .inl (same ▸ adds)
  -- what has been opened is written, and the key is another file
  obtain ⟨t₃, added⟩ := Tree.exists_append_of_create created m.certificateBlock.text
  obtain ⟨r, mode, led, there, -⟩ := Tree.exists_of_create_append created added
  have links₁ := links.within adds.within
  have links₃ := links₁.within ((Tree.within_create created).trans (Tree.within_append added))
  obtain rfl := links₁.resolve_eq led
  have opens : FileStep.run (.empty p.cert publicMode) t₁ = (.ok (), t₂) := FileStep.run_eq_ok_iff.mpr created
  have writes : FileStep.run (.add p.cert (Bytes.ofString (Pem.encode Pem.certificateLabel m.certificate))) t₂ =
      (.ok (), t₃) := FileStep.run_eq_ok_iff.mpr added
  have keyFile : ∀ s ∈ keySteps p m, ∀ path ∈ s.changed, place path ∈ [place p.key] := by
    simp [keySteps, FileStep.changed]
  rw [opens]
  dsimp only
  rw [FileStep.runAll_cons, writes]
  exact .inr ⟨mode, (FileStep.changesAt_runAll links₃ keyFile).2.at?_some (by simpa using apart) there⟩

/-! ## Calls -/

/-- What a call changes that may make a key pair. -/
structure Writes (p : Paths) (parent : Option KeyPair) (t u : Tree) : Prop where
  within : t.Within u
  changes : ChangesAt [place p.cert, place p.key] t u
  /-- A certificate that is written is issued by the parent. -/
  cert : place p.cert ≠ place p.key → t.AddsDirectories u ∨
    ∃ (m : Minted) (issuer : Issuer) (mode : Nat), (∀ q ∈ parent, q.issuer = .ok issuer) ∧ m.By issuer ∧
      u.at? (place p.cert) = some (.file m.certificateBlock.text mode)

theorem Writes.refl (p : Paths) (parent : Option KeyPair) (t : Tree) : Writes p parent t t :=
  ⟨.refl t, fun _ _ => .inl rfl, fun _ => .inl (.refl t)⟩

variable {o : Order} {parent : Option KeyPair} {w : Workshop}

theorem writes_generate (p : Paths) (o : Order) (parent : Option KeyPair) {w : Workshop}
    (links : w.tree.Linkless) : Writes p parent w.tree (generate p o parent w).2.tree := by
  rw [generate]
  rcases mints : Certificate.mint o parent w.mint with ⟨e | m, mint⟩
  · exact .refl p parent w.tree
  obtain ⟨issuer, parents, made⟩ := minted_by (congrArg Prod.fst mints)
  have files : ∀ s ∈ savingSteps p m, ∀ path ∈ s.changed, place path ∈ [place p.cert, place p.key] :=
    fun s hs path => changed_savingSteps hs
  obtain ⟨grown, changes⟩ := FileStep.changesAt_runAll links files
  refine ⟨grown, changes, fun apart => ?_⟩
  rcases cert_of_savingSteps links apart with adds | ⟨mode, there⟩
  · exact .inl adds
  · exact .inr ⟨m, issuer, mode, parents, made, there⟩

/-- A call generates a key pair only when it does not see one, and what it returns has been loaded. -/
theorem getOrGenerate_cases (p : Paths) (o : Order) (parent : Option KeyPair) (w : Workshop) :
    ((getOrGenerate p o parent w).2 = w ∨ Tree.look p.key w.tree ≠ .ok () ∧
      (getOrGenerate p o parent w).2 = (generate p o parent w).2) ∧
    ∀ k, (getOrGenerate p o parent w).1 = .ok k →
      KeyPair.load p.cert p.key (getOrGenerate p o parent w).2.tree = .ok k := by
  rw [getOrGenerate]
  split
  · exact ⟨.inl rfl, fun k hk => hk⟩
  · rename_i missing
    rw [missing]
    rcases generate p o parent w with ⟨e | _, w'⟩
    · exact ⟨.inr ⟨by simp, rfl⟩, by simp⟩
    · exact ⟨.inr ⟨by simp, rfl⟩, fun k hk => hk⟩
  · exact ⟨.inl rfl, by simp⟩

theorem writes_getOrGenerate (p : Paths) (o : Order) (parent : Option KeyPair) {w : Workshop}
    (links : w.tree.Linkless) : Writes p parent w.tree (getOrGenerate p o parent w).2.tree := by
  rcases (getOrGenerate_cases p o parent w).1 with same | ⟨-, made⟩
  · rw [same]
    exact .refl p parent w.tree
  · rw [made]
    exact writes_generate p o parent links

/-! ## Loaded files -/

namespace KeyPair

theorem load_eq_ok {certPath keyPath : String} (h : load certPath keyPath t = .ok k) :
    ∃ content key, Tree.read certPath t = .ok content ∧ Tree.read keyPath t = .ok key ∧
      certificates certPath content = .ok k.chain := by
  rw [load] at h
  split at h
  · cases h
  rename_i content read
  obtain ⟨chain, certs, h⟩ := bind_eq_ok_iff.mp h
  split at h
  · cases h
  rename_i first further
  split at h
  · cases h
  rename_i key readKey
  obtain ⟨w, -, h⟩ := bind_eq_ok_iff.mp h
  obtain rfl := Except.ok.inj h
  exact ⟨content, key, read, readKey, certs⟩

/-- A key pair can be loaded as long as its two files can be read. -/
theorem load_of_read {certPath keyPath : String} (h : load certPath keyPath t = .ok k)
    (cert : ∀ bytes, Tree.read certPath t = .ok bytes → Tree.read certPath u = .ok bytes)
    (key : ∀ bytes, Tree.read keyPath t = .ok bytes → Tree.read keyPath u = .ok bytes) :
    load certPath keyPath u = .ok k := by
  obtain ⟨content, plain, readCert, readKey, -⟩ := load_eq_ok h
  rw [load, cert content readCert, key plain readKey]
  rwa [load, readCert, readKey] at h

/-- A change elsewhere leaves the key pair as it is. -/
theorem load_of_changesAt {certPath keyPath : String} (h : load certPath keyPath t = .ok k)
    (changes : ChangesAt ps t u) (grown : t.Within u) (links : t.Linkless) (cert : place certPath ∉ ps)
    (key : place keyPath ∉ ps) : load certPath keyPath u = .ok k :=
  load_of_read h (fun _ => changes.read_eq grown links cert) (fun _ => changes.read_eq grown links key)

/-- A key pair that can be loaded is seen. -/
theorem look_of_load {certPath keyPath : String} (h : load certPath keyPath t = .ok k) :
    Tree.look keyPath t = .ok () := by
  obtain ⟨_, _, -, readKey, -⟩ := load_eq_ok h
  exact Tree.look_of_read readKey

/-! ## Issued certificates -/

/-- The certificate names the key pair as its issuer, and is signed by its key. -/
def Issues (ca : KeyPair) (cert : Bytes) : Prop :=
  ∃ (issuer : Issuer) (content : Content), ca.issuer = .ok issuer ∧ content.issuer = issuer.name ∧
    cert = content.sign issuer.key

/-- The certificate has been issued by the one that stands behind it in the chain. -/
def IssuedBy (k ca : KeyPair) : Prop :=
  k.chainWith ca = [k.certificate, ca.certificate] ∧ ca.Issues k.certificate

theorem issues_of_by {issuer : Issuer} (h : ca.issuer = .ok issuer) (made : m.By issuer) :
    ca.Issues m.certificate := by
  obtain ⟨content, key, named, -, signed, -⟩ := made.certified
  exact ⟨issuer, content, h, named, signed⟩

/-- A key pair is issued by whoever has issued the certificate that was saved. -/
theorem issuedBy_of_load {certPath keyPath : String} (h : load certPath keyPath t = .ok k)
    (saved : Tree.read certPath t = .ok m.certificateBlock.text) (issued : ca.Issues m.certificate) :
    k.IssuedBy ca := by
  obtain ⟨content, -, read, -, certs⟩ := load_eq_ok h
  obtain rfl := Except.ok.inj (saved.symm.trans read)
  rw [certificates_certificateBlock, chain] at certs
  obtain ⟨same, empty⟩ := List.cons.inj (Except.ok.inj certs)
  refine ⟨?_, same ▸ issued⟩
  rw [chainWith, chain, ← empty]
  rfl

end KeyPair

end ForwardProxy.Certificate
