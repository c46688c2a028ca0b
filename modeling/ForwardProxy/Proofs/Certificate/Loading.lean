import ForwardProxy.Certificate.KeyPair
import ForwardProxy.Proofs.Pem.RoundTrip

/-!
# Saved key pairs are loaded

Certificates and keys are saved as blocks, and a file may hold blocks of other kinds between them. All
certificates of the one file are loaded, in their order, with the first private key of the other, which is
wrapped if it is a plain one. Without a certificate, or without a key, the block that is missing is named.

* `certificates_write`, `certificates_certificatePem`: the file of the certificates, and one certificate as text.
* `privateKey_write`, `privateKey_write_of_none`: the file of the key. What stands behind the first key may be any
  bytes, since nobody reads it.
* `written_is_loaded`: the two files together, with the shape of the text that has been written.

## Side conditions

Labels that cannot be told from the hyphens around them are left out (`IsLabel`): a block of such a label makes its
file unreadable, also the blocks behind it. `hyphens_are_miscounted` shows that each part of this is needed, and that
only a label of at most 48 characters leaves its lines as short as the lines of data. The labels that the program
writes itself all satisfy the condition.

`HoldsKey` is asked of the block with the key: a plain one must be wrapped, and one that is labelled as wrapped is
taken as it is. What it means for such a block to hold a key is another matter, and is not said here.
-/

namespace ForwardProxy.Certificate.KeyPair

open Pem (Block IsLabel)

/-! ## Certificates -/

/-- The certificates among blocks. -/
def certificatesIn (bs : List Block) : List Bytes :=
  (bs.filter fun b => b.label = Pem.certificateLabel).map Block.data

theorem certificates_write {bs : List Block} (hbs : ∀ b ∈ bs, IsLabel b.label) (path : String) :
    certificates path (Pem.write bs) = .ok (certificatesIn bs) := by
  have known : ∀ b ∈ bs, (decide (b.label = Pem.certificateLabel) && b.isKnown) =
      decide (b.label = Pem.certificateLabel) := by
    intro b _
    by_cases h : b.label = Pem.certificateLabel
    · have listed : Pem.knownLabels.contains Pem.certificateLabel := by decide
      simp only [h, Block.isKnown, listed, decide_true, Bool.and_self]
    · simp only [h, decide_false, Bool.false_and]
  simp only [certificates, Pem.read_write hbs, if_true, List.filter_filter]
  rw [certificatesIn, List.filter_congr known]

/-- A certificate in text armour is read back. -/
theorem certificates_certificatePem (k : KeyPair) (path : String) :
    certificates path (Bytes.ofString k.certificatePem) = .ok [k.certificate] := by
  have text : Bytes.ofString k.certificatePem = Pem.write [⟨Pem.certificateLabel, k.certificate⟩] := by
    rw [Pem.write, List.flatMap_singleton]
    rfl
  rw [text, certificates_write (by simpa using by decide)]
  rfl

/-! ## Keys -/

/-- The block holds a private key, which is `w` when it is wrapped. -/
inductive HoldsKey (b : Block) (w : Bytes) : Prop
  | plain (label : b.label = Pem.rsaKeyLabel) (wrapped : Rsa.wrap b.data = .ok w)
  | wrapped (label : b.label = Pem.privateKeyLabel) (data : b.data = w)

variable {b : Block} {w : Bytes}

theorem HoldsKey.mem_keyLabels (h : HoldsKey b w) : b.label ∈ keyLabels := by
  cases h with
  | plain label => rw [label]; decide
  | wrapped label => rw [label]; decide

theorem HoldsKey.keyOf (h : HoldsKey b w) (path : String) : keyOf path b = .ok w := by
  cases h with
  | plain label wrapped => rw [KeyPair.keyOf, if_pos label, wrapped]
  | wrapped label data =>
    rw [KeyPair.keyOf, if_neg (by rw [label]; decide), if_pos label, data]

/-- Private keys are known, and their labels can be told. -/
theorem keyLabels_known : ∀ l ∈ keyLabels, Pem.knownLabels.contains l ∧ IsLabel l := by
  decide

theorem find?_key_eq_none {bs : List Block} (hbs : ∀ b ∈ bs, b.label ∉ keyLabels) :
    (bs.filter Block.isKnown).find? (fun b => keyLabels.contains b.label) = none := by
  rw [List.find?_eq_none]
  intro b hb
  rw [List.contains_iff_mem]
  exact hbs b (List.mem_of_mem_filter hb)

/-- The first private key is loaded, whatever stands behind it. -/
theorem privateKey_write {front : List Block} (hfront : ∀ b ∈ front, IsLabel b.label)
    (other : ∀ b ∈ front, b.label ∉ keyLabels) (h : HoldsKey b w) (path : String) (rest : Bytes) :
    privateKey path (Pem.write (front ++ [b]) ++ rest) = .ok w := by
  have known := keyLabels_known b.label h.mem_keyLabels
  have labels : ∀ x ∈ front ++ [b], IsLabel x.label := by
    intro x hx
    rcases List.mem_append.mp hx with hx | hx
    · exact hfront x hx
    · rw [List.mem_singleton.mp hx]
      exact known.2
  have first : ((front ++ [b]).filter Block.isKnown ++ (Pem.read rest).blocks).find?
      (fun b => keyLabels.contains b.label) = some b := by
    have kept : [b].filter Block.isKnown = [b] := by
      rw [List.filter_eq_self]
      intro x hx
      rw [List.mem_singleton.mp hx]
      exact known.1
    have found : [b].find? (fun b => keyLabels.contains b.label) = some b := by
      simp only [List.find?_cons, List.contains_iff_mem.mpr h.mem_keyLabels]
    rw [List.find?_append, List.filter_append, List.find?_append, find?_key_eq_none other, kept, found]
    rfl
  simp only [privateKey, Pem.read_write_append labels, first, h.keyOf]

theorem privateKey_write_of_none {bs : List Block} (hbs : ∀ b ∈ bs, IsLabel b.label)
    (other : ∀ b ∈ bs, b.label ∉ keyLabels) (path : String) :
    privateKey path (Pem.write bs) = .error (.missingPem path Pem.rsaKeyLabel) := by
  simp only [privateKey, Pem.read_write hbs, find?_key_eq_none other, if_true]

/-! ## Key pairs -/

/-- What is loaded from two paths, of which the first leads to a file of the blocks. -/
structure ReadBack (certPath keyPath : String) (t : Files.Tree) (certs : List Block) : Prop where
  loaded : ∀ d ds front key rest w, certificatesIn certs = d :: ds →
    (∀ b ∈ front, IsLabel b.label ∧ b.label ∉ keyLabels) → HoldsKey key w →
    Files.Tree.read keyPath t = .ok (Pem.write (front ++ [key]) ++ rest) →
    load certPath keyPath t = .ok ⟨d, ds, w⟩
  noCertificate : certificatesIn certs = [] →
    load certPath keyPath t = .error (.missingPem certPath Pem.certificateLabel)
  noKey : ∀ keys, certificatesIn certs ≠ [] → (∀ b ∈ keys, IsLabel b.label ∧ b.label ∉ keyLabels) →
    Files.Tree.read keyPath t = .ok (Pem.write keys) →
    load certPath keyPath t = .error (.missingPem keyPath Pem.rsaKeyLabel)
  certificatePem : ∀ (k : KeyPair) path, certificates path (Bytes.ofString k.certificatePem) = .ok [k.certificate]
  onlyFeeds : ∀ label data, IsLabel label → '\r' ∉ (Pem.encode label data).toList
  shortLines : ∀ label data, IsLabel label → label.length ≤ 48 →
    ∀ line ∈ (Pem.encode label data).toList.splitOn '\n', line.length ≤ 64

/-- What has been written is loaded again. -/
theorem written_is_loaded (certPath keyPath : String) (t : Files.Tree) {certs : List Block}
    (hcerts : ∀ b ∈ certs, IsLabel b.label)
    (hfile : Files.Tree.read certPath t = .ok (Pem.write certs)) :
    ReadBack certPath keyPath t certs where
  loaded d ds front key rest w hds hfront hkey hread := by
    rw [load, hfile, hread]
    simp only [ofContents, certificates_write hcerts, hds, bind, Except.bind,
      privateKey_write (fun b hb => (hfront b hb).1) (fun b hb => (hfront b hb).2) hkey]
    rfl
  noCertificate hnone := by
    rw [load, hfile]
    simp only [ofContents, certificates_write hcerts, hnone, bind, Except.bind]
  noKey keys hsome hkeys hread := by
    obtain ⟨d, ds, hds⟩ := List.exists_cons_of_ne_nil hsome
    rw [load, hfile, hread]
    simp only [ofContents, certificates_write hcerts, hds, bind, Except.bind,
      privateKey_write_of_none (fun b hb => (hkeys b hb).1) (fun b hb => (hkeys b hb).2)]
  certificatePem := certificates_certificatePem
  onlyFeeds label data hlabel := Pem.return_notMem_encode hlabel data
  shortLines label data hlabel hlength line hline := by
    have all := Pem.length_line_le hlabel data hline
    rw [Pem.lineWidth] at all
    omega

/-! ## Two files -/

/-- The two files of a key pair, which hold blocks. -/
def filesOf (certs keys : List Block) : Files.Tree :=
  ⟨[(["cert.pem"], .file (Pem.write certs) 0o644), (["key.pem"], .file (Pem.write keys) 0o600)]⟩

/-- A plain key with the number one in all places. -/
def onesKey : Bytes :=
  [0x30, 0x1B, 2, 1, 0, 2, 1, 1, 2, 1, 1, 2, 1, 1, 2, 1, 1, 2, 1, 1, 2, 1, 1, 2, 1, 1, 2, 1, 1]

theorem written_is_loaded_chain :
    ∃ w, Rsa.wrap onesKey = .ok w ∧
      load "cert.pem" "key.pem"
        (filesOf [⟨"NOTE", [7]⟩, ⟨Pem.certificateLabel, [0, 1]⟩, ⟨"X509 CRL", []⟩,
            ⟨Pem.certificateLabel, [2]⟩]
          ([⟨"PUBLIC KEY", [3]⟩] ++ [⟨Pem.rsaKeyLabel, onesKey⟩])) = .ok ⟨[0, 1], [[2]], w⟩ := by
  have wrapped : Rsa.wrap onesKey = .ok (Der.sequence (Rsa.wrappedItems onesKey)) := by decide +kernel
  refine ⟨_, wrapped, ?_⟩
  have back := written_is_loaded "cert.pem" "key.pem"
    (filesOf [⟨"NOTE", [7]⟩, ⟨Pem.certificateLabel, [0, 1]⟩, ⟨"X509 CRL", []⟩,
      ⟨Pem.certificateLabel, [2]⟩] ([⟨"PUBLIC KEY", [3]⟩] ++ [⟨Pem.rsaKeyLabel, onesKey⟩]))
    (by decide) rfl
  exact back.loaded [0, 1] [[2]] [⟨"PUBLIC KEY", [3]⟩] ⟨Pem.rsaKeyLabel, onesKey⟩ [] _ rfl (by decide)
    (.plain rfl wrapped) (by rw [List.append_nil]; rfl)

/-- A block whose label ends in a hyphen makes the certificate behind it unreadable, and so does one
whose label breaks the line; and a long label makes a long line. -/
theorem hyphens_are_miscounted :
    load "cert.pem" "key.pem" (filesOf [⟨"NOTE-", [0, 1, 2, 3]⟩, ⟨Pem.certificateLabel, [0, 1, 2, 3]⟩]
      [⟨Pem.privateKeyLabel, [5]⟩]) = .error (unreadable "cert.pem") ∧
    load "cert.pem" "key.pem" (filesOf [⟨"NO\nTE", []⟩, ⟨Pem.certificateLabel, [0, 1, 2, 3]⟩]
      [⟨Pem.privateKeyLabel, [5]⟩]) = .error (unreadable "cert.pem") ∧
    ∃ line ∈ (Pem.encode (String.ofList (List.replicate 49 'A')) []).toList.splitOn '\n',
      64 < line.length := by
  exact ⟨by decide, by decide, by decide +kernel⟩

end ForwardProxy.Certificate.KeyPair
