import ForwardProxy.Proofs.Interception.LeafName

/-!
# Every host has files of its own

The name of a leaf file can be read back. In a stem an underscore stands in front of two digits in base
sixteen and nowhere else, so the bytes of the host are found from left to right. The ending begins with an
underscore too, and `_ce` would be the digits of a byte; but the last characters of a name tell its ending, and
what is left is the stem. So two hosts share their files only if they are the same up to the case of ASCII
letters, and a path to a file leads to the directory of the leaves and one name further.

* `unstem_stem`: the stem is read back, by induction on the bytes; `unstem_stemOctet` is the step, with anything behind
  the characters of the byte.
* `leafName_eq_iff`, `leafPaths_eq_iff`: when names, and the paths of both files, are the same.
* `locate_under`: a name in a directory is found in it, however the path of the directory leads there, be it over
  links. The induction goes over the links that may be followed and over the names (`walk_concat`).
* `hosts_have_own_files`: all of it, for any hosts and any directory.

The host is any text. It need not be the name of anything: slashes, points, zero bytes and letters outside ASCII are
all written in base sixteen. Whether the system takes a name of that length is left to `inside`.
-/

namespace ForwardProxy.Bytes

theorem hexValue?_hexDigit {n : Nat} (hn : n < 16) : hexValue? (hexDigit n) = some n := by
  have all : ∀ n : Fin 16, hexValue? (hexDigit n.val) = some n.val := by decide
  exact all ⟨n, hn⟩

end ForwardProxy.Bytes

namespace ForwardProxy.Text

theorem lower_eq_lower_iff {s t : String} : lower s = lower t ↔ eqIgnoringCase s.toList t.toList = true := by
  rw [lower, lower, String.ofList_inj, eqIgnoringCase, beq_iff_eq]

end ForwardProxy.Text

namespace ForwardProxy.Files.Tree

variable {t : Tree} {p here : Place} {dir name : String}

/-- A name in a directory leads there, however the directory has been found. -/
theorem walkWith_concat {follow follow' : Place → List String → Except Fault Place}
    (hf : ∀ here ns, follow here ns = .ok p → follow' here (ns ++ [name]) = .ok (p ++ [name]))
    (there : t.at? p = some .directory) (down : name ≠ "..") (short : name.utf8ByteSize ≤ maxName)
    {ns : List String} (found : t.walkWith true follow here ns = .ok p) :
    t.walkWith false follow' here (ns ++ [name]) = .ok (p ++ [name]) := by
  induction ns generalizing here with
  | nil =>
    obtain rfl := Except.ok.inj found
    rw [List.nil_append, walkWith_cons, if_neg down, if_neg (Nat.not_lt.mpr short)]
    rcases t.at? (here ++ [name]) with _ | ⟨_, _⟩ | _ | _ <;> simp [walkWith]
  | cons n rest ih =>
    rw [walkWith_cons] at found
    rw [List.cons_append, walkWith_cons]
    split
    · rename_i up
      rw [if_pos up] at found
      exact ih found
    rename_i up
    rw [if_neg up] at found
    split
    · rename_i long
      rw [if_pos long] at found
      cases found
    rename_i fits
    rw [if_neg fits] at found
    have more : (rest ++ [name]).isEmpty = false := by simp
    -- the names lead to a directory, so they do not end at anything else
    have other (e : Option Entry) (he : t.at? (here ++ [n]) = e) (no : e ≠ some .directory) :
        here ++ [n] ≠ p := by
      rintro rfl
      exact no (he.symm.trans there)
    cases entry : t.at? (here ++ [n]) with
    | none =>
      simp only [entry] at found
      split at found
      · exact absurd (Except.ok.inj found) (other _ entry (by simp))
      · cases found
    | some e =>
      simp only [entry] at found
      cases e with
      | directory => exact ih found
      | file content mode =>
        dsimp only at found
        split at found
        · exact absurd (Except.ok.inj found) (other _ entry (by simp))
        · cases found
      | link target =>
        simp only [Bool.not_true, Bool.and_false, Bool.false_eq_true, if_false] at found
        simp only [more, Bool.false_and, Bool.false_eq_true, if_false]
        rw [← List.append_assoc]
        exact hf _ _ found

theorem walk_concat {links : Nat} {ns : List String} (there : t.at? p = some .directory) (down : name ≠ "..")
    (short : name.utf8ByteSize ≤ maxName) (found : t.walk true links here ns = .ok p) :
    t.walk false links here (ns ++ [name]) = .ok (p ++ [name]) := by
  induction links generalizing here ns with
  | zero => exact walkWith_concat (fun _ _ failed => by cases failed) there down short found
  | succ links ih => exact walkWith_concat (fun _ _ followed => ih followed) there down short found

/-- The path of a name in a directory leads to that name in it. -/
theorem locate_under (named : IsName name) (down : name ≠ "..") (short : name.utf8ByteSize ≤ maxName)
    (found : t.resolve dir = .ok p) (there : t.at? p = some .directory) :
    t.locate (under dir name) = .ok (p ++ [name]) := by
  rw [resolve] at found
  split at found
  · cases found
  rename_i nonempty
  have path : (under dir name).isEmpty = false := by
    rw [Bool.eq_false_iff]
    intro empty
    have path_names := names_under dir name
    rw [String.isEmpty_iff.mp empty, names_empty, named.names_eq] at path_names
    simp at path_names
  rw [locate, if_neg (by simp [path]), names_under, named.names_eq]
  exact walk_concat there down short found

end ForwardProxy.Files.Tree

namespace ForwardProxy.Interception

open Files (Tree Place)

/-! ## Stems -/

/-- The bytes that a stem stands for. -/
def unstem : List Char → Option Bytes
  | [] => some []
  | '_' :: hi :: lo :: cs => do
    let hi ← Bytes.hexValue? hi
    let lo ← Bytes.hexValue? lo
    let rest ← unstem cs
    some (UInt8.ofNat (16 * hi + lo) :: rest)
  | c :: cs => (unstem cs).map (UInt8.ofNat c.toNat :: ·)

/-- A byte that stands for itself is no underscore, and its character has its code. -/
theorem plain_byte {b : UInt8} (h : isPlainByte b = true) :
    Char.ofNat b.toNat ≠ '_' ∧ UInt8.ofNat (Char.ofNat b.toNat).toNat = b :=
  Bytes.forall_of_codes
    (P := fun b => isPlainByte b = true →
      Char.ofNat b.toNat ≠ '_' ∧ UInt8.ofNat (Char.ofNat b.toNat).toNat = b)
    (by decide +kernel) b h

/-- The characters of a byte are read back as that byte, whatever stands behind them. -/
theorem unstem_stemOctet (b : UInt8) (cs : List Char) :
    unstem (stemOctet b ++ cs) = (unstem cs).map (b :: ·) := by
  rw [stemOctet]
  split
  · rename_i plain
    obtain ⟨other, code⟩ := plain_byte plain
    rw [List.singleton_append, unstem.eq_3 _ _ (fun _ _ _ same _ => other same), code]
  · have high : b.toNat / 16 < 16 := by
      have := b.toNat_lt
      omega
    have low : b.toNat % 16 < 16 := Nat.mod_lt _ (by decide)
    have whole : UInt8.ofNat (16 * (b.toNat / 16) + b.toNat % 16) = b := by
      rw [Nat.div_add_mod, UInt8.ofNat_toNat]
    simp only [Bytes.hexOctet, List.cons_append, List.nil_append, unstem, Bytes.hexValue?_hexDigit high,
      Bytes.hexValue?_hexDigit low, Option.bind_eq_bind, Option.bind_some, whole]
    cases unstem cs <;> rfl

theorem unstem_stem (host : Bytes) : unstem (stem host) = some host := by
  induction host with
  | nil => rfl
  | cons b host ih =>
    rw [stem, List.flatMap_cons, unstem_stemOctet]
    rw [stem] at ih
    rw [ih]
    rfl

theorem stem_injective : Function.Injective stem := by
  intro host host' same
  have back := unstem_stem host
  rw [same, unstem_stem] at back
  exact (Option.some.inj back).symm

/-! ## Names -/

theorem leafName_eq_iff {host host' : String} {f f' : LeafFile} :
    leafName host f = leafName host' f' ↔ Text.lower host = Text.lower host' ∧ f = f' := by
  constructor
  · intro same
    have kinds : f = f' := by
      cases f <;> cases f'
      · rfl
      · exact absurd same (leafName_certificate_ne_key host host')
      · exact absurd same.symm (leafName_certificate_ne_key host' host)
      · rfl
    subst kinds
    have stems := congrArg String.toList same
    rw [toList_leafName, toList_leafName, List.append_cancel_right_eq] at stems
    exact ⟨Bytes.ofString_injective (stem_injective stems), rfl⟩
  · rintro ⟨same, rfl⟩
    rw [leafName, leafName, same]

theorem nul_notMem_leafName (host : String) (f : LeafFile) : '\x00' ∉ (leafName host f).toList := by
  have octets (b : UInt8) : '\x00' ∉ stemOctet b :=
    Bytes.forall_of_codes (P := fun b => '\x00' ∉ stemOctet b) (by decide +kernel) b
  have ending : ∀ f : LeafFile, '\x00' ∉ f.ending := by
    rintro (_ | _) <;> decide
  simp [toList_leafName, stem, octets, ending f]

theorem leafPaths_eq_iff {dir host host' : String} :
    leafPaths dir host = leafPaths dir host' ↔ Text.lower host = Text.lower host' := by
  constructor
  · intro same
    have names := congrArg (fun p => Tree.names p.cert) same
    simp only [leafPaths, Tree.names_under, (isName_leafName _ _).names_eq, List.append_cancel_left_eq,
      List.cons.injEq, and_true] at names
    exact (leafName_eq_iff.mp names).1
  · intro same
    rw [← leafPaths_lower dir host, same, leafPaths_lower]

/-- What is known of the files of hosts in a directory. -/
structure OwnFiles (dir : String) : Prop where
  /-- A host is found again from its stem. -/
  recovered : ∀ host, (unstem (stem (Bytes.ofString host))).bind Bytes.utf8? = some host
  /-- A name is that of one host and one of its two files. -/
  told : ∀ host f host' f', leafName host f = leafName host' f' ↔ Text.lower host = Text.lower host' ∧ f = f'
  /-- A name is a single one: it leads neither up nor further down nor to the directory itself. -/
  single : ∀ host f, '/' ∉ (leafName host f).toList ∧ '\x00' ∉ (leafName host f).toList ∧
    leafName host f ≠ "" ∧ leafName host f ≠ "." ∧ leafName host f ≠ ".."
  /-- The paths of the files are those of the directory and one name more. -/
  names : ∀ host, Tree.names (leafPaths dir host).cert = Tree.names dir ++ [leafName host .certificate] ∧
    Tree.names (leafPaths dir host).key = Tree.names dir ++ [leafName host .key]
  /-- In every tree the paths lead to the directory itself, if the system takes names of that length. -/
  inside : ∀ (t : Tree) (p : Place) host f, t.resolve dir = .ok p → t.at? p = some .directory →
    (leafName host f).utf8ByteSize ≤ Tree.maxName →
      t.locate (Tree.under dir (leafName host f)) = .ok (p ++ [leafName host f])
  /-- Hosts have the same files if they are the same up to the case of ASCII letters. -/
  shared : ∀ host host', leafPaths dir host = leafPaths dir host' ↔
    Text.eqIgnoringCase host.toList host'.toList = true

/-- The files of different hosts are different files in the directory. -/
theorem hosts_have_own_files (dir : String) : OwnFiles dir where
  recovered host := by rw [unstem_stem, Option.bind_some, Bytes.utf8?_ofString]
  told _ _ _ _ := leafName_eq_iff
  single host f := by
    have name := isName_leafName host f
    exact ⟨name.slash_notMem, nul_notMem_leafName host f, name.ne_empty, name.ne_point, leafName_ne_up host f⟩
  names host := by
    have split (f : LeafFile) :
        Tree.names (Tree.under dir (leafName host f)) = Tree.names dir ++ [leafName host f] := by
      rw [Tree.names_under, (isName_leafName host f).names_eq]
    exact ⟨split .certificate, split .key⟩
  inside _ _ host f found there short :=
    Tree.locate_under (isName_leafName host f) (leafName_ne_up host f) short found there
  shared _ _ := leafPaths_eq_iff.trans Text.lower_eq_lower_iff

example : leafName "../A_3a" .key = ".._2fa_5f3a_key.pem" := by decide

end ForwardProxy.Interception
