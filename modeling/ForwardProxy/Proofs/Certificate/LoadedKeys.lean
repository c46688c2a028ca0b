import ForwardProxy.Certificate.Minting
import ForwardProxy.Proofs.Certificate.Loading
import ForwardProxy.Proofs.Results
import ForwardProxy.Proofs.Rsa.Conversion

/-!
# What a loaded key is

A plain key is checked when it is wrapped, and a key over an elliptic curve is refused. What is labelled as a
wrapped key is taken as it is: it becomes the private key of the pair, whether it is a key of RSA or not. So a
loaded key is a whole key of RSA unless it comes from such a block, and then nobody notices before it is to sign
something.

* `keyOf_eq_ok_iff`: what is taken out of a block, as the relation `HoldsKey` of block and key.
* `HoldsKey.whole_or_foreign`: it is a whole key, or the block is a foreign one, that is labelled as wrapped and does
  not hold one.
* `keyOf_eq_refusal`: any other block is refused, and for what reason.
* `load_of_kept`, `exists_kept_of_load`: the key pair of two files is that of the first private key in the one and of
  all certificates in the other, in both directions.
* `loaded_keys_are_whole`: the four cases of a call, for any paths and files.

The case split is on the label of the block first, as in the program, and only then on what it holds. `IsWhole` has a
constructor for each of the two labels under which RSA keys are kept; its `room` is the bound on the length that a
wrapped key may have. Wholeness is a matter of the form: that the numbers of the key fit together is asked nowhere.
-/

namespace ForwardProxy.Certificate.KeyPair

open Files (Tree)
open Pem (Block)

variable {certPath keyPath : String} {t : Tree} {k : KeyPair} {b : Block} {content w : Bytes}

/-! ## Blocks of private keys -/

/-- The first block of the content that is labelled as a private key. -/
def IsFirstKey (content : Bytes) (b : Block) : Prop :=
  ∃ front back, (Pem.read content).blocks = front ++ b :: back ∧ (∀ x ∈ front, x.label ∉ keyLabels) ∧
    b.label ∈ keyLabels

/-- The bytes are one whole key of RSA in its wrapped form. -/
def IsWrappedKey (w : Bytes) : Prop := ∃ plain, Rsa.Wraps w plain

/-- The block holds one whole key of RSA, in the form that its label stands for; a plain one leaves room for the
envelope. -/
inductive IsWhole (b : Block) : Prop
  | plain (label : b.label = Pem.rsaKeyLabel) (numbers : Rsa.Numbers) (written : numbers.write = b.data)
      (room : (Der.sequence (Rsa.wrappedItems b.data)).length ≤ Der.maxLength)
  | wrapped (label : b.label = Pem.privateKeyLabel) (whole : IsWrappedKey b.data)

/-- The block is labelled as a wrapped key, and does not hold one of RSA. -/
structure IsForeign (b : Block) : Prop where
  label : b.label = Pem.privateKeyLabel
  foreign : ¬ IsWrappedKey b.data

theorem isFirstKey_iff :
    IsFirstKey content b ↔ (Pem.read content).blocks.find? (fun b => keyLabels.contains b.label) = some b := by
  simp only [IsFirstKey, List.find?_eq_some_iff_append, List.contains_iff_mem]
  constructor
  · rintro ⟨front, back, cut, others, label⟩
    exact ⟨label, front, back, cut, fun x hx => by simpa using others x hx⟩
  · rintro ⟨label, front, back, cut, others⟩
    exact ⟨front, back, cut, fun x hx => by simpa using others x hx, label⟩

theorem privateKey_of_isFirstKey (first : IsFirstKey content b) (path : String) :
    privateKey path content = keyOf path b := by
  simp only [privateKey, isFirstKey_iff.mp first]

theorem exists_isFirstKey {path : String} (h : privateKey path content = .ok w) :
    ∃ b, IsFirstKey content b ∧ keyOf path b = .ok w := by
  rw [privateKey] at h
  split at h
  · rename_i b found
    exact ⟨b, isFirstKey_iff.mpr found, h⟩
  · split at h <;> cases h

/-- What is taken out of a block. -/
theorem keyOf_eq_ok_iff {path : String} : keyOf path b = .ok w ↔ HoldsKey b w := by
  refine ⟨fun h => ?_, fun h => h.keyOf path⟩
  rw [keyOf] at h
  split at h
  · rename_i label
    split at h
    · rename_i wrapped
      obtain rfl := Except.ok.inj h
      exact .plain label wrapped
    · cases h
  · split at h
    · rename_i label
      exact .wrapped label (Except.ok.inj h)
    · cases h

/-- What is taken out of a block is a whole key, or the block is a foreign one. -/
theorem HoldsKey.whole_or_foreign (h : HoldsKey b w) :
    (IsWhole b ∧ IsWrappedKey w) ∨ (IsForeign b ∧ w = b.data) := by
  cases h with
  | plain label wrapped =>
    obtain ⟨⟨numbers, written⟩, room⟩ := Rsa.exists_wrap_iff.mp ⟨w, wrapped⟩
    exact .inl ⟨.plain label numbers written room, b.data, Rsa.unwrap_eq_ok_iff.mp (Rsa.unwrap_of_wrap wrapped)⟩
  | wrapped label data =>
    by_cases whole : IsWrappedKey b.data
    · exact .inl ⟨.wrapped label whole, data ▸ whole⟩
    · exact .inr ⟨⟨label, whole⟩, data.symm⟩

/-- A whole key is taken out of its block. -/
theorem IsWhole.exists_holdsKey (h : IsWhole b) : ∃ w, HoldsKey b w ∧ IsWrappedKey w := by
  cases h with
  | plain label numbers written room =>
    obtain ⟨w, wrapped⟩ := Rsa.exists_wrap_iff.mpr ⟨⟨numbers, written⟩, room⟩
    exact ⟨w, .plain label wrapped, b.data, Rsa.unwrap_eq_ok_iff.mp (Rsa.unwrap_of_wrap wrapped)⟩
  | wrapped label whole => exact ⟨b.data, .wrapped label rfl, whole⟩

/-- Why nothing is taken out of a block that does not hold a whole key. -/
def refusal (path : String) (b : Block) : Error :=
  if b.label = Pem.curveKeyLabel then .malformedKey (path ++ " does not hold an RSA key") else .ofKey .malformed

theorem keyOf_eq_refusal (label : b.label ∈ keyLabels) (whole : ¬ IsWhole b) (foreign : ¬ IsForeign b)
    (path : String) : keyOf path b = .error (refusal path b) := by
  have unwrapped : b.label ≠ Pem.privateKeyLabel := by
    intro label
    by_cases wrapped : IsWrappedKey b.data
    · exact whole (.wrapped label wrapped)
    · exact foreign ⟨label, wrapped⟩
  by_cases plain : b.label = Pem.rsaKeyLabel
  · have curve : b.label ≠ Pem.curveKeyLabel := by
      rw [plain]
      decide
    cases wrapped : Rsa.wrap b.data with
    | ok w =>
      obtain ⟨⟨numbers, written⟩, room⟩ := Rsa.exists_wrap_iff.mp ⟨w, wrapped⟩
      exact absurd (.plain plain numbers written room) whole
    | error fault =>
      obtain rfl : fault = .malformed := by
        rw [Rsa.wrap] at wrapped
        split at wrapped
        · cases wrapped
        · exact (Except.error.inj wrapped).symm
      rw [keyOf, if_pos plain, wrapped, refusal, if_neg curve]
  · have curve : b.label = Pem.curveKeyLabel := by simpa [keyLabels, plain, unwrapped] using label
    rw [keyOf, if_neg plain, if_neg unwrapped, refusal, if_pos curve]

/-! ## Files of key pairs -/

/-- The two files of a key pair: the chain is that of all certificates in the one, and the block is the first
private key in the other. -/
structure Kept (certPath keyPath : String) (t : Tree) (chain : List Bytes) (b : Block) : Prop where
  cert : ∃ content, Tree.read certPath t = .ok content ∧ certificates certPath content = .ok chain
  key : ∃ content, Tree.read keyPath t = .ok content ∧ IsFirstKey content b

theorem load_of_kept {d : Bytes} {ds : List Bytes} (kept : Kept certPath keyPath t (d :: ds) b) :
    load certPath keyPath t = (keyOf keyPath b).map fun w => ⟨d, ds, w⟩ := by
  obtain ⟨⟨cert, readCert, chain⟩, key, readKey, first⟩ := kept
  rw [load, readCert, readKey]
  simp only [ofContents, chain, bind, Except.bind, privateKey_of_isFirstKey first]
  cases keyOf keyPath b <;> rfl

/-- A key pair is loaded from what is kept in its files. -/
theorem exists_kept_of_load (h : load certPath keyPath t = .ok k) :
    ∃ b, Kept certPath keyPath t k.chain b ∧ HoldsKey b k.key := by
  rw [load] at h
  split at h
  · cases h
  rename_i cert readCert
  obtain ⟨chain, certs, h⟩ := bind_eq_ok_iff.mp h
  split at h
  · cases h
  rename_i first further
  split at h
  · cases h
  rename_i content readKey
  obtain ⟨w, key, h⟩ := bind_eq_ok_iff.mp h
  obtain rfl := Except.ok.inj h
  obtain ⟨b, isFirst, taken⟩ := exists_isFirstKey key
  exact ⟨b, ⟨⟨cert, readCert, certs⟩, content, readKey, isFirst⟩, keyOf_eq_ok_iff.mp taken⟩

/-- A foreign key cannot sign. -/
theorem signingKey_of_foreign (foreign : ¬ IsWrappedKey k.key) : ∃ why, k.signingKey = .error (.malformedKey why) := by
  cases unwrapped : Rsa.unwrap k.key with
  | error fault => exact ⟨fault.message, by rw [signingKey, unwrapped]; rfl⟩
  | ok plain => exact absurd ⟨plain, Rsa.unwrap_eq_ok_iff.mp unwrapped⟩ foreign

/-- What is loaded from two paths, as far as the key goes. -/
structure LoadsKeys (certPath keyPath : String) (t : Tree) : Prop where
  /-- What has been loaded is a whole key, unless it comes from a foreign block. -/
  loaded : ∀ k, load certPath keyPath t = .ok k → k.chain ≠ [] ∧ ∃ b, Kept certPath keyPath t k.chain b ∧
    ((IsWhole b ∧ IsWrappedKey k.key) ∨ (IsForeign b ∧ k.key = b.data))
  whole : ∀ d ds b, Kept certPath keyPath t (d :: ds) b → IsWhole b →
    ∃ w, load certPath keyPath t = .ok ⟨d, ds, w⟩ ∧ IsWrappedKey w
  refused : ∀ d ds b, Kept certPath keyPath t (d :: ds) b → ¬ IsWhole b → ¬ IsForeign b →
    load certPath keyPath t = .error (refusal keyPath b) ∧ ∃ why, refusal keyPath b = .malformedKey why
  /-- A foreign block is taken for a key. Only when it is to sign something, it is refused. -/
  foreign : ∀ d ds b, Kept certPath keyPath t (d :: ds) b → IsForeign b →
    load certPath keyPath t = .ok ⟨d, ds, b.data⟩ ∧ ¬ IsWrappedKey b.data ∧
      ∃ why, signingKey ⟨d, ds, b.data⟩ = .error (.malformedKey why)

/-- Keys are loaded that are whole keys of RSA, and whatever is labelled as a wrapped key; all others are
refused. -/
theorem loaded_keys_are_whole (certPath keyPath : String) (t : Tree) : LoadsKeys certPath keyPath t where
  loaded k h := by
    obtain ⟨b, kept, holds⟩ := exists_kept_of_load h
    exact ⟨List.cons_ne_nil _ _, b, kept, holds.whole_or_foreign⟩
  whole d ds b kept whole := by
    obtain ⟨w, holds, wrapped⟩ := whole.exists_holdsKey
    exact ⟨w, by rw [load_of_kept kept, holds.keyOf]; rfl, wrapped⟩
  refused d ds b kept whole foreign := by
    obtain ⟨content, -, -, -, -, -, label⟩ := kept.key
    refine ⟨by rw [load_of_kept kept, keyOf_eq_refusal label whole foreign]; rfl, ?_⟩
    rw [refusal]
    split
    · exact ⟨_, rfl⟩
    · exact ⟨_, rfl⟩
  foreign d ds b kept foreign := by
    have holds : HoldsKey b b.data := .wrapped foreign.label rfl
    exact ⟨by rw [load_of_kept kept, holds.keyOf]; rfl, foreign.foreign, signingKey_of_foreign foreign.foreign⟩

/-- One byte that is no key at all is loaded under the label of wrapped keys, and refused under both others. -/
theorem loaded_keys_are_whole_byte :
    load "cert.pem" "key.pem" (filesOf [⟨Pem.certificateLabel, [0]⟩] [⟨Pem.privateKeyLabel, [5]⟩]) =
      .ok ⟨[0], [], [5]⟩ ∧
    load "cert.pem" "key.pem" (filesOf [⟨Pem.certificateLabel, [0]⟩] [⟨Pem.rsaKeyLabel, [5]⟩]) =
      .error (.malformedKey "invalid encoding") ∧
    load "cert.pem" "key.pem" (filesOf [⟨Pem.certificateLabel, [0]⟩] [⟨Pem.curveKeyLabel, [5]⟩]) =
      .error (.malformedKey "key.pem does not hold an RSA key") := by
  have kept (label : String) (isLabel : label ∈ keyLabels) :
      Kept "cert.pem" "key.pem" (filesOf [⟨Pem.certificateLabel, [0]⟩] [⟨label, [5]⟩]) [[0]] ⟨label, [5]⟩ := by
    have known := keyLabels_known label isLabel
    refine ⟨⟨_, rfl, certificates_write (by decide) _⟩, _, rfl, [], [], ?_, by simp, isLabel⟩
    rw [Pem.read_write (by simpa using known.2)]
    simpa [Block.isKnown] using known.1
  have noKey : ¬ IsWrappedKey [5] := by
    rintro ⟨plain, wraps⟩
    have unwraps := Rsa.unwrap_eq_ok_iff.mpr wraps
    cases unwraps
  have noNumbers : ∀ numbers : Rsa.Numbers, numbers.write ≠ [5] := by
    intro numbers written
    have plain : Rsa.isPlainKey [5] = true := Rsa.isPlainKey_iff.mpr ⟨numbers, written, by decide⟩
    cases plain
  have noWhole (label : String) : ¬ IsWhole ⟨label, [5]⟩ := by
    rintro (⟨-, numbers, written, -⟩ | ⟨-, whole⟩)
    · exact noNumbers numbers written
    · exact noKey whole
  have loads := fun label => loaded_keys_are_whole "cert.pem" "key.pem"
    (filesOf [⟨Pem.certificateLabel, [0]⟩] [⟨label, [5]⟩])
  refine ⟨?_, ?_, ?_⟩
  · exact ((loads _).foreign _ _ _ (kept _ (by decide)) ⟨rfl, noKey⟩).1
  · exact ((loads _).refused _ _ _ (kept _ (by decide)) (noWhole _) fun f => absurd f.label (by decide)).1
  · exact ((loads _).refused _ _ _ (kept _ (by decide)) (noWhole _) fun f => absurd f.label (by decide)).1

end ForwardProxy.Certificate.KeyPair
