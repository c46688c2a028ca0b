import ForwardProxy.Certificate.Minting
import ForwardProxy.Proofs.Results
import ForwardProxy.Proofs.Rsa.Generated

/-!
# What is minted belongs together

A new certificate names its issuer and is signed by it, and it is for the new key, which can be wrapped
(`minted_by`). The issuer is the parent, or the new key pair itself where there is no parent.

`Minted.By` says what the later modules need of a new key pair, so that none of them follows the minting again:
`certified` is what a leaf is told by that has been issued by an authority, and `wrapped` is what makes a saved key
loadable. Whether a key pair is minted at all depends on the source of randomness, on the name of the host and on the
parent; that is said where it is used.
-/

namespace ForwardProxy.Certificate

/-- The certificate is for the key, has been issued by the issuer, and the key can be wrapped. -/
structure Minted.By (m : Minted) (issuer : Issuer) : Prop where
  certified : ∃ (content : Content) (key : Rsa.Numbers), content.issuer = issuer.name ∧
    content.key = key.publicKey ∧ m.certificate = content.sign issuer.key ∧ m.key = key.write
  wrapped : ∃ w, Rsa.wrap m.key = .ok w

/-- What is minted is issued by the parent, if there is one. -/
theorem minted_by {o : Order} {parent : Option KeyPair} {mint : Mint} {m : Minted}
    (h : (Certificate.mint o parent mint).1 = .ok m) :
    ∃ issuer, (∀ p ∈ parent, p.issuer = .ok issuer) ∧ m.By issuer := by
  rw [Certificate.mint] at h
  rcases hkey : Rsa.Numbers.generate (mint.entropy.bytes serialBytes).2 with ⟨_ | key, entropy⟩
  · simp only [hkey] at h
    cases h
  simp only [hkey] at h
  obtain ⟨issuer, parents, signed⟩ : ∃ issuer : Issuer, (∀ p ∈ parent, p.issuer = .ok issuer) ∧
      (o.extensions key.publicKey issuer.key.publicKey >>= fun extensions =>
        let content : Content := {
          serial := serialOf (mint.entropy.bytes serialBytes).1
          issuer := issuer.name
          notBefore := mint.now - backdateDays * Calendar.daySeconds
          notAfter := mint.now + validityDays * Calendar.daySeconds
          subject := o.name
          key := key.publicKey
          extensions }
        pure ⟨content.sign issuer.key, key.write⟩) = Except.ok m := by
    cases parent with
    | none =>
      refine ⟨⟨o.name, key⟩, by simp, ?_⟩
      split at h
      · obtain ⟨_, -, h⟩ := bind_eq_ok_iff.mp h
        exact h
      · exact h
    | some p =>
      split at h
      · obtain ⟨_, -, h⟩ := bind_eq_ok_iff.mp h
        obtain ⟨issuer, hissuer, h⟩ := bind_eq_ok_iff.mp h
        exact ⟨issuer, by simpa using hissuer, h⟩
      · obtain ⟨issuer, hissuer, h⟩ := bind_eq_ok_iff.mp h
        exact ⟨issuer, by simpa using hissuer, h⟩
  obtain ⟨extensions, -, made⟩ := bind_eq_ok_iff.mp signed
  obtain rfl := Except.ok.inj made
  exact ⟨issuer, parents, ⟨_, key, rfl, rfl, rfl, rfl⟩, Rsa.Numbers.exists_wrap_of_generate hkey⟩

end ForwardProxy.Certificate
