import ForwardProxy.Proofs.Balancer.Redirecting
import ForwardProxy.Proofs.Uri.Ports

/-!
# Which port a request goes to

A request goes to the port that its authority names, if that is a number below 65536, and otherwise to the
default port of its scheme, whether the authority names no port at all or one that cannot be read. In the first
case this is the port to which a tunnel to the same authority would lead; in the last one the request for the
tunnel would be refused. A request for a backend is no exception, since it goes to the backend's authority.

The three cases of `TakesPort` are those of the port text: a number, nothing, or anything else. `Authority.port?_eq`
reduces the port that is used to this text, and `Address.port_of_readTarget` does so for the port of a tunnel, so that
the two can be compared although they are looked for from different ends of the authority.

`unbracket a.text.toList = none` stands where a tunnel is refused: an authority that is in brackets as a whole is
taken for a host without a port, and its port text is empty anyway. Only the schemes http and https are considered,
since a target with any other has no origin.
-/

namespace ForwardProxy

namespace Proxy

open Address (unbracket readTarget)

variable {a : Authority} {target : HostPort}

/-- A request for a tunnel to an authority is refused for a port text that is no port, unless the whole text
stands in brackets. -/
theorem connectTarget_of_unreadable (named : a.portText ≠ "") (unreadable : Text.readPort a.portText.toList = none)
    (bare : unbracket a.text.toList = none) : connectTarget (.authority a) = .error (.invalidPort a.portText) := by
  obtain ⟨front, text, -⟩ := a.exists_front
  cases cut : Text.splitLast ':' a.behindHost with
  | none => exact absurd (by rw [Authority.portText, cut]) named
  | some parts =>
    obtain ⟨f, b⟩ := parts
    have port : a.portText = String.ofList b := by rw [Authority.portText, cut]
    have whole := Text.splitLast_append cut front
    rw [port, String.toList_ofList] at unreadable
    rw [← text] at whole
    simp [connectTarget, Uri.authority?, readTarget, bare, whole, unreadable, port]

/-- What the port of a request has to do with the text that stands for a port in its authority. -/
structure TakesPort (https : Bool) (a : Authority) (port : Nat) : Prop where
  /-- A port below 65536 is taken, as it is for a tunnel. -/
  named : ∀ n, Text.readPort a.portText.toList = some n →
    port = n ∧ ∀ target, connectTarget (.authority a) = .ok target → target.port = n
  missing : a.portText = "" → port = Origin.defaultPort https
  /-- Any other text is passed over, though a tunnel is refused for it. -/
  unreadable : a.portText ≠ "" → Text.readPort a.portText.toList = none → port = Origin.defaultPort https ∧
    (unbracket a.text.toList = none → connectTarget (.authority a) = .error (.invalidPort a.portText))

theorem takesPort (https : Bool) (a : Authority) :
    TakesPort https a (a.port?.getD (Origin.defaultPort https)) := by
  rw [a.port?_eq]
  refine ⟨fun n read => ?_, fun missing => ?_, fun named unreadable => ?_⟩
  · rw [read]
    refine ⟨rfl, fun target accepted => ?_⟩
    have port : a.port?.getD (Origin.defaultPort true) = target.port := Address.port_of_readTarget accepted
    rw [← port, a.port?_eq, read]
    rfl
  · rw [missing]
    rfl
  · rw [unreadable]
    exact ⟨rfl, connectTarget_of_unreadable named unreadable⟩

/-- A request goes to the port of its authority, and one for a backend to that of the backend, if it names one. -/
theorem usable_ports_are_honoured {scheme : String} (web : scheme = "http" ∨ scheme = "https") (a : Authority)
    (t : PathQuery) :
    (∃ o, Origin.ofUri (.absolute scheme a t) = .ok o ∧ o.https = (scheme == "https") ∧ o.host = a.host ∧
      TakesPort o.https a o.port) ∧
    ∀ s s', Balancer.redirect s a.text = .ok s' → ∃ o, Origin.ofUri s'.request.uri = .ok o ∧ o.https = false ∧
      o.host = a.host ∧ TakesPort false a o.port := by
  constructor
  · rcases web with rfl | rfl
    · exact ⟨_, rfl, rfl, rfl, takesPort false a⟩
    · exact ⟨_, rfl, rfl, rfl, takesPort true a⟩
  · intro s s' redirected
    obtain ⟨b, text, rfl⟩ := Balancer.redirect_eq_ok_iff.mp redirected
    obtain rfl : a = b := by simpa using congrArg Authority.ofString? text.symm
    exact ⟨_, rfl, rfl, rfl, takesPort false a⟩

/-- A port out of range is passed over in a target and in a backend. -/
theorem usable_ports_are_honoured_out_of_range : ∃ (a : Authority) (s s' : Session), a.text = "site.test:99999" ∧
    (∃ o, Origin.ofUri (.absolute "https" a .root) = .ok o ∧ o.port = 443) ∧
    connectTarget (.authority a) = .error (.invalidPort "99999") ∧
    Balancer.redirect s a.text = .ok s' ∧ ∃ o, Origin.ofUri s'.request.uri = .ok o ∧ o.port = 80 := by
  let a : Authority := ⟨"site.test:99999", by decide⟩
  have named : a.portText = "99999" := by decide
  let s : Session := { request := { uri := .origin .root }, remote := ⟨.v4 [127, 0, 0, 1], 4000⟩ }
  obtain ⟨s', redirected, -⟩ := Balancer.exists_redirected (s := s) (a := a) rfl
  have web : "https" = "http" ∨ "https" = "https" := .inr rfl
  obtain ⟨⟨o, found, https, -, takes⟩, backends⟩ := usable_ports_are_honoured web a .root
  obtain ⟨o', found', -, -, takes'⟩ := backends s s' redirected
  rw [https] at takes
  obtain ⟨port, refused⟩ := takes.unreadable (by decide) (by decide)
  rw [named] at refused
  obtain ⟨port', -⟩ := takes'.unreadable (by decide) (by decide)
  exact ⟨a, s, s', rfl, ⟨o, found, port⟩, refused (by decide), redirected, o', found', port'⟩

end Proxy
end ForwardProxy
