import ForwardProxy.Interception.Interceptor
import ForwardProxy.Proofs.Certificate.Obtaining
import ForwardProxy.Proofs.Interception.LeafName

/-!
# Stored leaves

The two files of a host are in the directory of the leaves, apart from those of other hosts and from the
files of the authority. A leaf is stored when both are there; who has issued it is told by the certificate
alone. What a look-up writes is issued by the authority that it is made with (`LeavesBy.writes`).

`LeavesBy P t` says that every leaf stored in `t` has been issued by an authority with `P`, so that the same lemmas
serve for all authorities that there have been and for the one that is there now. It is kept by any change that stores
no new leaf (`LeavesBy.of_stored`), and by a call for a key pair with such an authority.

`Apart` is the one condition on the places: if a file of the authority were a leaf file of some host, a look-up could
write over it. A certificate without its key does not count as stored. It may be of any issuer, or a part of one;
the next call finds no key and makes both anew.
-/

namespace ForwardProxy.Interception

open Certificate (KeyPair Workshop Minted Mint)
open Files (Tree Place)
open Files.Tree (Linkless ChangesAt place)

/-! ## Stored leaves -/

namespace Places

variable {p : Places} {t u : Tree} {host host' : String} {f g : LeafFile} {content : Bytes} {ps : List Place}
  {P Q : KeyPair → Prop} {k ca : KeyPair} {w : Workshop}

/-- The authority in the files. -/
def authorityIn (p : Places) (t : Tree) : Except Certificate.Error KeyPair :=
  KeyPair.load p.authority.cert p.authority.key t

/-- The leaf of a host in the files. -/
def leafIn (p : Places) (host : String) (t : Tree) : Except Certificate.Error KeyPair :=
  KeyPair.load (leafPaths p.leaves host).cert (leafPaths p.leaves host).key t

/-- Where a file of a host is. -/
def leafPlace (p : Places) (host : String) (f : LeafFile) : Place := place p.leaves ++ [leafName host f]

/-- The files of the authority are no leaf files. -/
structure Apart (p : Places) : Prop where
  cert : ∀ host f, p.leafPlace host f ≠ place p.authority.cert
  key : ∀ host f, p.leafPlace host f ≠ place p.authority.key

/-- Both files of a host are there, and the certificate's has this content. -/
def Stored (p : Places) (host : String) (content : Bytes) (t : Tree) : Prop :=
  (∃ mode, t.at? (p.leafPlace host .certificate) = some (.file content mode)) ∧
    ∃ key mode, t.at? (p.leafPlace host .key) = some (.file key mode)

/-- There is no host of which both files are there. -/
def NoLeaves (p : Places) (t : Tree) : Prop := ∀ host content, ¬ p.Stored host content t

/-- The leaves that are stored have been issued by such authorities. -/
def LeavesBy (p : Places) (P : KeyPair → Prop) (t : Tree) : Prop :=
  ∀ host content, p.Stored host content t →
    ∃ (ca : KeyPair) (m : Minted), P ca ∧ ca.Issues m.certificate ∧ content = m.certificateBlock.text

theorem place_leafPaths (p : Places) (host : String) :
    place (leafPaths p.leaves host).cert = p.leafPlace host .certificate ∧
      place (leafPaths p.leaves host).key = p.leafPlace host .key :=
  ⟨Tree.place_under (isName_leafName host _) (leafName_ne_up host _),
    Tree.place_under (isName_leafName host _) (leafName_ne_up host _)⟩

theorem leafPlace_inj (h : p.leafPlace host f = p.leafPlace host' g) :
    f = g ∧ ∀ f', p.leafPlace host f' = p.leafPlace host' f' := by
  have same : leafName host f = leafName host' g := by simpa [leafPlace] using h
  have kinds : f = g := by
    cases f <;> cases g
    · rfl
    · exact absurd same (leafName_certificate_ne_key host host')
    · exact absurd same.symm (leafName_certificate_ne_key host' host)
    · rfl
  subst kinds
  refine ⟨rfl, fun f' => ?_⟩
  rw [leafPlace, leafName_congr same f', leafPlace]

theorem leafPaths_congr (h : p.leafPlace host .certificate = p.leafPlace host' .certificate) :
    leafPaths p.leaves host = leafPaths p.leaves host' := by
  have same : leafName host .certificate = leafName host' .certificate := by simpa [leafPlace] using h
  rw [leafPaths, leafPaths, same, leafName_congr same .key]

/-- Hosts share both of their files or none. -/
theorem leafPlace_notMem (h : p.leafPlace host' .certificate ≠ p.leafPlace host .certificate) (f : LeafFile) :
    p.leafPlace host' f ∉ [p.leafPlace host .certificate, p.leafPlace host .key] := by
  simp only [List.mem_cons, List.not_mem_nil, or_false, not_or]
  exact ⟨fun same => h ((leafPlace_inj same).2 _), fun same => h ((leafPlace_inj same).2 _)⟩

theorem Apart.notMem (a : p.Apart) (host : String) (f : LeafFile) :
    p.leafPlace host f ∉ [place p.authority.cert, place p.authority.key] := by
  simp [a.cert host f, a.key host f]

theorem Stored.of_changes (h : p.Stored host content u) (changes : ChangesAt ps t u)
    (apart : ∀ f, p.leafPlace host f ∉ ps) : p.Stored host content t := by
  obtain ⟨⟨mode, cert⟩, key, mode', there⟩ := h
  exact ⟨⟨mode, changes.at?_file (apart _) cert⟩, key, mode', changes.at?_file (apart _) there⟩

theorem stored_of_leafIn (links : t.Linkless) (h : p.leafIn host t = .ok k) : ∃ content,
    p.Stored host content t ∧ Tree.read (leafPaths p.leaves host).cert t = .ok content := by
  obtain ⟨content, key, read, readKey, -⟩ := KeyPair.load_eq_ok h
  obtain ⟨mode, cert⟩ := links.read_eq_ok read
  obtain ⟨mode', there⟩ := links.read_eq_ok readKey
  rw [(p.place_leafPaths host).1] at cert
  rw [(p.place_leafPaths host).2] at there
  exact ⟨content, ⟨⟨mode, cert⟩, key, mode', there⟩, read⟩

namespace LeavesBy

theorem mono (h : p.LeavesBy P t) (sub : ∀ ca, P ca → Q ca) : p.LeavesBy Q t := by
  intro host content stored
  obtain ⟨ca, m, hca, issued⟩ := h host content stored
  exact ⟨ca, m, sub ca hca, issued⟩

theorem of_noLeaves (h : p.NoLeaves t) : p.LeavesBy P t :=
  fun host content stored => absurd stored (h host content)

theorem of_stored (h : p.LeavesBy P t)
    (back : ∀ host content, p.Stored host content u → p.Stored host content t) : p.LeavesBy P u :=
  fun host content stored => h host content (back host content stored)

/-- A leaf that can be loaded has been issued by such an authority. -/
theorem issuedBy (h : p.LeavesBy P t) (links : t.Linkless) (loaded : p.leafIn host t = .ok k) :
    ∃ ca, P ca ∧ k.IssuedBy ca := by
  obtain ⟨content, stored, read⟩ := stored_of_leafIn links loaded
  obtain ⟨ca, m, hca, issued, rfl⟩ := h host content stored
  exact ⟨ca, hca, KeyPair.issuedBy_of_load loaded read issued⟩

/-- A leaf that is written by such an authority is one more of them. -/
theorem writes (h : p.LeavesBy P t) (hca : P ca)
    (writes : Certificate.Writes (leafPaths p.leaves host) (some ca) t u) : p.LeavesBy P u := by
  obtain ⟨cert, key⟩ := p.place_leafPaths host
  have apart : place (leafPaths p.leaves host).cert ≠ place (leafPaths p.leaves host).key := by
    rw [cert, key]
    intro same
    cases (leafPlace_inj same).1
  have changes := writes.changes
  rcases writes.cert apart with adds | ⟨m, issuer, mode, parent, made, there⟩
  · exact h.of_stored fun host' content stored => stored.of_changes (adds.changesAt []) (by simp)
  rw [cert] at there
  rw [cert, key] at changes
  intro host' content stored
  by_cases same : p.leafPlace host' .certificate = p.leafPlace host .certificate
  · obtain ⟨mode', found⟩ := stored.1
    rw [same, there] at found
    obtain ⟨text, -⟩ := Files.Entry.file.inj (Option.some.inj found)
    exact ⟨ca, m, hca, KeyPair.issues_of_by (parent ca rfl) made, text.symm⟩
  · exact h host' content (stored.of_changes changes (leafPlace_notMem same))

end LeavesBy
end Places
end ForwardProxy.Interception
