import ForwardProxy.Http.Inbound
import ForwardProxy.Proofs.Uri.Targets

/-!
# Requests that come off a connection

A scanner that does one thing and then another has found the first thing and then the second
(`Scanner.bind_eq_done_iff`), so that what a whole head has gone through can be told from the end. The target of a
request is the last thing that is looked at: it has been read as a target, whatever the bytes were.

* `isRead_of_scanRequestHead`: so it is for the head, by taking the scan apart at each bind.
* `Inbound.isRead_of_next`: so it is for a connection, which gives a request only when a head has been scanned. All
  other ways out of it are refusals, and no refusal is a request (`Inbound.refuse_ne_request`).

The target of a `CONNECT` and of any other method is read in the same way, so nothing is asked of the method.
-/

namespace ForwardProxy.Http

theorem Scanner.bind_eq_done_iff {α β : Type} {s : Scanner α} {f : α → Scanner β} {b rest : Bytes} {v : β} :
    (s >>= f : Scanner β) b = .done v rest ↔ ∃ a mid, s b = .done a mid ∧ f a mid = .done v rest := by
  change Scanner.andThen s f b = _ ↔ _
  rw [Scanner.andThen]
  cases s b <;> simp [and_assoc]

theorem isRead_of_readTarget {b : Bytes} {u : Uri} (h : readTarget b = .ok u) : u.IsRead := by
  rw [readTarget] at h
  split at h
  · cases h
  · split at h
    · rename_i read
      cases h
      obtain ⟨s, _, parsed⟩ := Option.bind_eq_some_iff.mp read
      exact ⟨s, parsed⟩
    · cases h

theorem isRead_of_scanRequestHead {b rest : Bytes} {head : RequestHead}
    (h : scanRequestHead b = .done head rest) : head.uri.IsRead := by
  simp only [scanRequestHead, Scanner.bind_eq_done_iff] at h
  obtain ⟨_, _, _, method, _, _, _, _, _, target, _, _, _, _, _, version, _, _, _, _, _, fields, _, _, h⟩ := h
  cases read : readTarget target with
  | error fault =>
    rw [read] at h
    cases h
  | ok uri =>
    rw [read] at h
    cases h
    exact isRead_of_readTarget read

theorem Inbound.refuse_ne_request (c c' : Inbound) (fault : HeadFault) (r : Request) :
    c.refuse fault ≠ (.request r, c') := by
  rw [Inbound.refuse]
  split <;> simp

/-- The target of every request that comes off a connection has been read. -/
theorem Inbound.isRead_of_next {c c' : Inbound} {r : Request} (h : c.next = (.request r, c')) :
    r.uri.IsRead := by
  rw [Inbound.next.eq_def] at h
  split at h
  · split at h
    · exact absurd h (Inbound.refuse_ne_request _ _ _ _)
    · split at h
      · cases h
      split at h
      · exact absurd h (Inbound.refuse_ne_request _ _ _ _)
      · cases h
    · rename_i scanned
      split at h
      · exact absurd h (Inbound.refuse_ne_request _ _ _ _)
      split at h
      · cases h
      cases h
      exact isRead_of_scanRequestHead scanned
  · cases h

end ForwardProxy.Http
