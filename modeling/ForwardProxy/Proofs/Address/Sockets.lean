import ForwardProxy.Address.Ip
import ForwardProxy.Proofs.Text.Visible

/-!
# Addresses as text

An address and a port are written with digits in base ten or sixteen, points, colons, brackets and a percent sign in
front of a scope, so that the text has visible characters only (`Socket.visible_render`). So the address of a peer
is the value of a header field, and the field that names the peer to a backend can always be set.

An IPv6 address is shortened at its longest run of zeros. The proof follows the writer through its cases (an IPv4
address behind a fixed front, a run that is shortened, or none) and asks of each part only that its characters are
visible, never which run has been chosen. Nothing here says that an address is read back as it was.
-/

namespace ForwardProxy.Address

open Text (IsVisibleChar forall_mem_intercalate)

theorem Ip.visible_renderOctets (octets : List Nat) : ∀ c ∈ (renderOctets octets).toList, IsVisibleChar c := by
  refine forall_mem_intercalate (forall_mem_of_all (by decide)) fun part hpart c hc => ?_
  obtain ⟨n, -, rfl⟩ := List.mem_map.mp hpart
  exact Text.isVisibleChar_of_mem_toString hc

theorem Ip.visible_joinGroups (groups : List Nat) : ∀ c ∈ (joinGroups groups).toList, IsVisibleChar c := by
  refine forall_mem_intercalate (forall_mem_of_all (by decide)) fun part hpart c hc => ?_
  obtain ⟨n, -, rfl⟩ := List.mem_map.mp hpart
  rw [hexNumber, String.toList_ofList] at hc
  exact Text.isVisibleChar_of_mem_toDigits hc

theorem Ip.visible_render (ip : Ip) : ∀ c ∈ ip.render.toList, IsVisibleChar c := by
  cases ip with
  | v4 octets => exact visible_renderOctets octets
  | v6 groups =>
    rw [render.eq_def]
    dsimp only
    split
    · rw [String.toList_append, List.forall_mem_append]
      exact ⟨forall_mem_of_all (by decide), visible_renderOctets _⟩
    · split
      · rw [String.toList_append, String.toList_append, List.forall_mem_append, List.forall_mem_append]
        exact ⟨⟨visible_joinGroups _, forall_mem_of_all (by decide)⟩, visible_joinGroups _⟩
      · exact visible_joinGroups _

theorem Scoped.visible_render (a : Scoped) : ∀ c ∈ a.render.toList, IsVisibleChar c := by
  cases a with
  | v4 octets => exact Ip.visible_renderOctets octets
  | v6 groups scope =>
    have number : ∀ c ∈ (toString scope).toList, IsVisibleChar c := fun c => Text.isVisibleChar_of_mem_toString
    rw [render]
    split
    · simp only [String.toList_append, List.forall_mem_append]
      exact ⟨⟨forall_mem_of_all (by decide), Ip.visible_render _⟩, forall_mem_of_all (by decide)⟩
    · simp only [String.toList_append, List.forall_mem_append]
      exact ⟨⟨⟨⟨forall_mem_of_all (by decide), Ip.visible_render _⟩, forall_mem_of_all (by decide)⟩, number⟩,
        forall_mem_of_all (by decide)⟩

theorem Socket.visible_render (s : Socket) : ∀ c ∈ s.render.toList, IsVisibleChar c := by
  rw [render]
  simp only [String.toList_append, List.forall_mem_append]
  exact ⟨⟨s.address.visible_render, forall_mem_of_all (by decide)⟩, fun c => Text.isVisibleChar_of_mem_toString⟩

example : (Socket.read "[fe80::1%3]:80").map Socket.render = some "[fe80::1%3]:80" := by decide

end ForwardProxy.Address
