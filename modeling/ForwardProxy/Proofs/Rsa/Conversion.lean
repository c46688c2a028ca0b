import ForwardProxy.Certificate.KeyPair
import ForwardProxy.Proofs.Rsa.Envelope
import ForwardProxy.Proofs.Rsa.PlainKey

/-!
# Conversion of keys

Wrapping a plain key writes the envelope that holds nothing else, and unwrapping gives the octets of
whatever envelope there is. So nothing of a key is lost on either way, and what stands around it has no
influence.

* `wrap_eq_ok_iff`, `exists_wrap_iff`: what is wrapped, and as what.
* `unwrap_write`: what is got out of a proper envelope, by its algorithm and octets.
* `unwrap_eq_ok_iff`, `unwrap_eq_otherAlgorithm_iff`: what is unwrapped, and what is told from bytes that are no key.
* `unwrap_of_wrap`: there and back.
* `conversion_loses_nothing`: all of it for any bytes `p` as a plain key and any bytes `q` as a wrapped one.

## Side conditions

`Lossless` has no hypothesis on `p` and `q`. Where a field has a condition, it is one on the two conversions:
`unwrapped` asks that the new envelope is not too long. A key can come out of an envelope that is shorter than the one
it would be wrapped in, since the parameter of the algorithm may be missing there, and then it cannot be wrapped
again. This is a matter of two bytes at the greatest length, but the statement would be false without it.

`inside` compares two envelopes by the algorithm and the octets alone, so that version, parameter, attributes, public
key and extensions may be any. `rejected` goes through the error that a caller of the certificate authority sees.
-/

namespace ForwardProxy.Rsa

variable {p q w : Bytes} {e : Envelope}

/-! ## Wrapping -/

/-- The envelope of a plain key: no public key, and RSA with nothing as its parameter. -/
def Envelope.ofPlain (plain : Bytes) : Envelope where
  algorithm := Der.Oid.rsaEncryption
  parameter := some ⟨Der.nullTag, []⟩
  octets := plain

theorem sequence_wrappedItems (plain : Bytes) :
    Der.sequence (wrappedItems plain) = (Envelope.ofPlain plain).write := by
  have version : Der.natural 0 = Der.Item.write ⟨Der.integerTag, [0]⟩ :=
    congrArg Der.Item.write Der.naturalItem_zero
  rw [wrappedItems, version]
  rfl

theorem Envelope.proper_ofPlain (hmax : (Envelope.ofPlain p).write.length ≤ Der.maxLength) :
    (Envelope.ofPlain p).Proper where
  algorithm := Der.Oid.inUse_rsaEncryption
  parameter := by
    rintro i hi
    obtain rfl := Option.some.inj hi
    exact ⟨rfl, Nat.zero_le _⟩
  extras := ⟨by simp [ofPlain], by simp [ofPlain], by simp [ofPlain]⟩
  writable := by simp [ofPlain, Extras.items]
  length := hmax

/-- Exactly the plain forms of numbers are wrapped, as long as the result is not too long. -/
theorem wrap_eq_ok_iff : wrap p = .ok w ↔
    (∃ k : Numbers, k.write = p) ∧ (Envelope.ofPlain p).write = w ∧ w.length ≤ Der.maxLength := by
  rw [wrap, sequence_wrappedItems]
  constructor
  · intro h
    split at h
    · rename_i hok
      obtain ⟨hplain, hmax⟩ := Bool.and_eq_true_iff.mp hok
      obtain rfl := Except.ok.inj h
      obtain ⟨k, hk, -⟩ := isPlainKey_iff.mp hplain
      exact ⟨⟨k, hk⟩, rfl, of_decide_eq_true hmax⟩
    · cases h
  · rintro ⟨⟨k, rfl⟩, rfl, hmax⟩
    have hplain : isPlainKey k.write = true :=
      isPlainKey_iff.mpr ⟨k, rfl, Nat.le_trans (Envelope.ofPlain k.write).length_octets_le hmax⟩
    simp [hplain, hmax]

theorem exists_wrap_iff : (∃ w, wrap p = .ok w) ↔
    (∃ k : Numbers, k.write = p) ∧ (Der.sequence (wrappedItems p)).length ≤ Der.maxLength := by
  rw [sequence_wrappedItems]
  constructor
  · rintro ⟨w, hw⟩
    obtain ⟨hk, rfl, hmax⟩ := wrap_eq_ok_iff.mp hw
    exact ⟨hk, hmax⟩
  · rintro ⟨hk, hmax⟩
    exact ⟨_, wrap_eq_ok_iff.mpr ⟨hk, rfl, hmax⟩⟩

/-! ## Unwrapping -/

/-- What is got out of a proper envelope depends on nothing but the algorithm and the octets. -/
theorem unwrap_write (he : e.Proper) : unwrap e.write =
    if e.algorithm = Der.Oid.rsaEncryption then
      if isPlainKey e.octets then .ok e.octets else .error .malformed
    else .error .otherAlgorithm := by
  have read : Wrapped.read e.write = some ⟨e.algorithm, e.octets⟩ :=
    Wrapped.read_eq_some_iff.mpr ⟨e, he, rfl, rfl⟩
  rw [unwrap, read]

theorem exists_envelope (h : unwrap q ≠ .error .malformed) :
    ∃ e : Envelope, e.Proper ∧ e.write = q := by
  cases hread : Wrapped.read q with
  | none => exact absurd (by rw [unwrap, hread]) h
  | some found =>
    obtain ⟨e, he, hq, -⟩ := Wrapped.read_eq_some_iff.mp hread
    exact ⟨e, he, hq⟩

/-- Exactly whole keys of RSA are unwrapped. -/
theorem unwrap_eq_ok_iff : unwrap q = .ok p ↔ Wraps q p := by
  constructor
  · intro h
    obtain ⟨e, he, rfl⟩ := exists_envelope (q := q) (by simp [h])
    rw [unwrap_write he] at h
    split at h
    · rename_i halgorithm
      split at h
      · rename_i hplain
        obtain ⟨k, hk, -⟩ := isPlainKey_iff.mp hplain
        exact ⟨e, k, he, rfl, halgorithm, Except.ok.inj h, hk.trans (Except.ok.inj h)⟩
      · cases h
    · cases h
  · rintro ⟨e, k, he, rfl, halgorithm, rfl, hk⟩
    have hplain : isPlainKey e.octets = true :=
      isPlainKey_iff.mpr ⟨k, hk, Nat.le_trans e.length_octets_le he.length⟩
    rw [unwrap_write he, if_pos halgorithm, if_pos hplain]

/-- A wrapped key gives back what has been wrapped. -/
theorem unwrap_of_wrap (h : wrap p = .ok w) : unwrap w = .ok p := by
  obtain ⟨⟨k, hk⟩, rfl, hmax⟩ := wrap_eq_ok_iff.mp h
  exact unwrap_eq_ok_iff.mpr ⟨Envelope.ofPlain p, k, Envelope.proper_ofPlain hmax, rfl, rfl, rfl, hk⟩

/-- A whole key of another algorithm is told from bytes that are no key. -/
theorem unwrap_eq_otherAlgorithm_iff : unwrap q = .error .otherAlgorithm ↔
    ∃ e : Envelope, e.Proper ∧ e.write = q ∧ e.algorithm ≠ Der.Oid.rsaEncryption := by
  constructor
  · intro h
    obtain ⟨e, he, rfl⟩ := exists_envelope (q := q) (by simp [h])
    rw [unwrap_write he] at h
    split at h
    · split at h <;> cases h
    · rename_i halgorithm
      exact ⟨e, he, rfl, halgorithm⟩
  · rintro ⟨e, he, rfl, halgorithm⟩
    rw [unwrap_write he, if_neg halgorithm]

/-! ## Nothing is lost -/

/-- What can be relied on when `p` is wrapped or `q` is unwrapped. -/
structure Lossless (p q : Bytes) : Prop where
  wrapped : ∀ {w}, wrap p = .ok w → unwrap w = .ok p
  unwrapped : unwrap q = .ok p → (Der.sequence (wrappedItems p)).length ≤ Der.maxLength →
    ∃ w, wrap p = .ok w ∧ unwrap w = .ok p
  /-- What can be wrapped at all. -/
  wraps : (∃ w, wrap p = .ok w) ↔
    (∃ k : Numbers, k.write = p) ∧ (Der.sequence (wrappedItems p)).length ≤ Der.maxLength
  normal : (normalForm q).bind normalForm = normalForm q
  /-- Version, parameters, attributes, public key and extensions have no influence. -/
  inside : ∀ {e e' : Envelope}, e.Proper → e'.Proper → e.algorithm = e'.algorithm →
    e.octets = e'.octets →
    unwrap e.write = unwrap e'.write ∧ normalForm e.write = normalForm e'.write
  accepted : unwrap q = .ok p ↔ Wraps q p
  rejected : (¬ ∃ p, Wraps q p) →
    ∃ why, (unwrap q).mapError Certificate.Error.ofKey = .error (.malformedKey why)
  other : unwrap q = .error .otherAlgorithm ↔
    ∃ e : Envelope, e.Proper ∧ e.write = q ∧ e.algorithm ≠ Der.Oid.rsaEncryption

/-- Conversion of keys loses nothing, from whichever form it starts. -/
theorem conversion_loses_nothing (p q : Bytes) : Lossless p q := by
  constructor
  case wrapped => exact unwrap_of_wrap
  case unwrapped =>
    intro h hmax
    obtain ⟨e, k, -, -, -, -, hk⟩ := unwrap_eq_ok_iff.mp h
    obtain ⟨w, hw⟩ := exists_wrap_iff.mpr ⟨⟨k, hk⟩, hmax⟩
    exact ⟨w, hw, unwrap_of_wrap hw⟩
  case wraps => exact exists_wrap_iff
  case normal =>
    cases hn : normalForm q with
    | error fault => rfl
    | ok w =>
      cases hq : unwrap q with
      | error fault =>
        rw [normalForm, hq] at hn
        cases hn
      | ok p =>
        have hw : wrap p = .ok w := by rwa [normalForm, hq] at hn
        change normalForm w = _
        rw [normalForm, unwrap_of_wrap hw]
        exact hw
  case inside =>
    intro e e' he he' halgorithm hoctets
    have same : unwrap e.write = unwrap e'.write := by
      rw [unwrap_write he, unwrap_write he', halgorithm, hoctets]
    exact ⟨same, by rw [normalForm, same, normalForm]⟩
  case accepted => exact unwrap_eq_ok_iff
  case rejected =>
    intro hnone
    cases h : unwrap q with
    | error fault => exact ⟨fault.message, rfl⟩
    | ok p => exact absurd ⟨p, unwrap_eq_ok_iff.mp h⟩ hnone
  case other => exact unwrap_eq_otherAlgorithm_iff

/-- A plain key with the number one in all places. -/
def unitKey : Bytes :=
  [0x30, 0x1B, 2, 1, 0, 2, 1, 1, 2, 1, 1, 2, 1, 1, 2, 1, 1, 2, 1, 1, 2, 1, 1, 2, 1, 1, 2, 1, 1]

/-- The same, wrapped with an attribute and a public key. -/
def publishedKey : Bytes :=
  [0x30, 0x37, 2, 1, 1, 0x30, 0x0D, 6, 9, 0x2A, 0x86, 0x48, 0x86, 0xF7, 0x0D, 1, 1, 1, 5, 0, 4, 0x1D] ++
    unitKey ++ [0xA0, 0, 0x81, 2, 0, 7]

theorem conversion_loses_nothing_published : unwrap publishedKey = .ok unitKey ∧
    ∃ w, wrap unitKey = .ok w ∧ unwrap w = .ok unitKey := by
  have unwraps : unwrap publishedKey = .ok unitKey := rfl
  have short : (Der.sequence (wrappedItems unitKey)).length ≤ Der.maxLength := by
    rw [sequence_wrappedItems]
    decide
  exact ⟨unwraps, (conversion_loses_nothing unitKey publishedKey).unwrapped unwraps short⟩

end ForwardProxy.Rsa
