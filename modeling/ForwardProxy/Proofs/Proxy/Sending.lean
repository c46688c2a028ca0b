import ForwardProxy.Proofs.Http.RequestHeads
import ForwardProxy.Proxy.Transport

/-!
# What is sent is read

A request without fields and body goes out with a Host field alone, whose value is a host and perhaps a port and
can be sent. Whoever scans the bytes finds the target that was written: the whole target toward a proxy that
forwards, else its path and query (`scanRequestHead_request`). A request for a tunnel names host and port alone, so
that the target that is found in it has no query (`scanRequestHead_tunnelRequest`).

Both requests are brought into the form of a request line, the lines of fields and a blank line, to which the reading
of heads applies. What it asks of the target and of the Host field comes from the origin: an authority has only
visible characters in it, and none that would end one (`Origin.mem_authority`).

The hypothesis `read`, that the text of the target is one that is read, is left to whoever knows where the target comes
from. A target that got longer on its way may be too long.
-/

namespace ForwardProxy

open Text (IsVisibleChar)

theorem Authority.isVisibleChar_of_mem_host (a : Authority) {c : Char} (h : c ∈ a.host.toList) :
    IsVisibleChar c := by
  rcases a.mem_of_mem_host h with held | rfl
  · exact a.isVisibleChar_of_mem held
  · decide

theorem Authority.endsAuthority_of_mem_host (a : Authority) {c : Char} (h : c ∈ a.host.toList) :
    Uri.endsAuthority c = false := by
  rcases a.mem_of_mem_host h with held | rfl
  · exact a.endsAuthority_of_mem held
  · decide

namespace Proxy

open Http (scanRequestHead)

namespace Origin

variable {u : Uri} {o : Origin}

theorem host_of_ofUri (h : ofUri u = .ok o) : ∃ a, u.authority? = some a ∧ o.host = a.host := by
  rw [ofUri] at h
  split at h
  · cases h
  split at h
  · dsimp only at h
    split at h
    · cases h
    · rename_i named
      cases h
      obtain ⟨a, found, rfl⟩ := Option.map_eq_some_iff.mp named
      exact ⟨a, found, rfl⟩
  · cases h

/-- Host and port of an origin are visible, and could stand in a target with anything behind them. -/
theorem mem_authority (h : ofUri u = .ok o) {c : Char} (hc : c ∈ o.authority.toList) :
    IsVisibleChar c ∧ Uri.endsAuthority c = false := by
  obtain ⟨a, -, host⟩ := host_of_ofUri h
  have pieces : o.authority.toList = a.host.toList ++ ':' :: (toString o.port).toList := by
    simp [authority, host]
  rw [pieces, List.mem_append, List.mem_cons] at hc
  rcases hc with held | rfl | held
  · exact ⟨a.isVisibleChar_of_mem_host held, a.endsAuthority_of_mem_host held⟩
  · decide
  · have digit := Text.isDigit_of_mem_toString held
    refine ⟨Text.isVisibleChar_of_isDigit digit, ?_⟩
    rw [← Bool.not_eq_true]
    intro ends
    rcases Uri.endsAuthority_iff.mp ends with rfl | rfl | rfl <;> revert digit <;> decide

end Origin

namespace Transport

variable {u found : Uri} {o : Origin}

theorem visible_hostField (h : Origin.ofUri u = .ok o) : ∀ c ∈ (hostField o u).toList, IsVisibleChar c := by
  obtain ⟨a, -, host⟩ := Origin.host_of_ofUri h
  have name : ∀ c ∈ o.host.toList, IsVisibleChar c := fun c hc => a.isVisibleChar_of_mem_host (host ▸ hc)
  rw [hostField]
  split
  · split
    · exact name
    · exact fun c hc => (Origin.mem_authority h hc).1
  · exact name

/-- A request without fields and body is a start line and a Host field. -/
theorem request_withHost (o : Origin) (u : Uri) (target : String) :
    Http.Wire.request (withHost o { uri := u }) target = Http.Wire.requestLine "GET" target .http11 ++
      ([("host", Bytes.ofString (hostField o u))].flatMap (fun f => Http.Wire.fieldLine f.1 f.2) ++
        (Http.Wire.lineEnd ++ [])) := by
  have coding : Http.Wire.requestCoding (withHost o { uri := u }) =
      (⟨[("host", Bytes.ofString (hostField o u))]⟩, .sized 0) := rfl
  have grouped (v : Bytes) : Http.Headers.grouped ⟨[("host", v)]⟩ = [("host", [v])] := rfl
  have start : (withHost o { uri := u }).method = "GET" ∧ (withHost o { uri := u }).version = .http11 := ⟨rfl, rfl⟩
  rw [Http.Wire.request, coding, start.1, start.2]
  simp [Http.Wire.fieldLines, grouped, Http.Wire.Coding.write]

/-- The request for a target is found with the target that its start line names. -/
theorem scanRequestHead_request {way : Way} (h : Origin.ofUri u = .ok o)
    (visible : ∀ c ∈ (targetText way u).toList, IsVisibleChar c)
    (read : Uri.parse? (targetText way u) = some found) :
    ∃ headers, scanRequestHead (Http.Wire.request (withHost o { uri := u }) (targetText way u)) =
      .done ⟨"GET", found, .http11, headers⟩ [] := by
  have filled : (targetText way u).toList ≠ [] := by
    intro empty
    rw [Uri.parse?.eq_def, empty] at read
    simp at read
  have sendable : ∀ f ∈ [("host", Bytes.ofString (hostField o u))], Http.IsField f := by
    simpa [Http.IsField] using ⟨by decide, Http.isValue_of_visible (visible_hostField h)⟩
  have few : [("host", Bytes.ofString (hostField o u))].length ≤ Http.maxFields := by simp [Http.maxFields]
  rw [request_withHost, Http.scanRequestHead_written .http11 (by decide) filled visible sendable few [],
    Http.readTarget_ofString.mpr read]
  exact ⟨_, rfl⟩

theorem tunnelRequest_eq (o : Origin) : tunnelRequest o = Http.Wire.requestLine "CONNECT" o.authority .http11 ++
    ([("Host", Bytes.ofString o.authority)].flatMap (fun f => Http.Wire.fieldLine f.1 f.2) ++
      (Http.Wire.lineEnd ++ [])) := by
  have colon : Bytes.ofString " HTTP/1.1\r\nHost: " =
      Bytes.ofString " " ++ (Bytes.ofString "HTTP/1.1" ++ (Http.Wire.lineEnd ++ (Bytes.ofString "Host" ++ [58, 32]))) :=
    rfl
  have ends : Bytes.ofString "\r\n\r\n" = Http.Wire.lineEnd ++ Http.Wire.lineEnd := rfl
  have method : Bytes.ofString "CONNECT " = Bytes.ofString "CONNECT" ++ Bytes.ofString " " := rfl
  simp only [tunnelRequest, Http.Wire.requestLine, Http.Wire.fieldLine, Http.Version.render, Bytes.ofString_append,
    colon, ends, method, List.flatMap_cons, List.flatMap_nil, List.append_nil, List.append_assoc]

/-- What is found in the request for a tunnel has no query. -/
theorem scanRequestHead_tunnelRequest (h : Origin.ofUri u = .ok o) {head : Http.RequestHead} {rest : Bytes}
    (scan : scanRequestHead (tunnelRequest o) = .done head rest) : head.uri.query? = none := by
  have visible : ∀ c ∈ o.authority.toList, IsVisibleChar c := fun c hc => (Origin.mem_authority h hc).1
  have filled : o.authority.toList ≠ [] := by simp [Origin.authority]
  have sendable : ∀ f ∈ [("Host", Bytes.ofString o.authority)], Http.IsField f := by
    simpa [Http.IsField] using ⟨by decide, Http.isValue_of_visible visible⟩
  have few : [("Host", Bytes.ofString o.authority)].length ≤ Http.maxFields := by simp [Http.maxFields]
  rw [tunnelRequest_eq, Http.scanRequestHead_written .http11 (by decide) filled visible sendable few []] at scan
  cases read : Http.readTarget (Bytes.ofString o.authority) with
  | error fault =>
    rw [read] at scan
    cases scan
  | ok found =>
    rw [read] at scan
    cases scan
    exact Uri.query?_eq_none (Http.readTarget_ofString.mp read) fun c hc => (Origin.mem_authority h hc).2

end Transport
end Proxy
end ForwardProxy
