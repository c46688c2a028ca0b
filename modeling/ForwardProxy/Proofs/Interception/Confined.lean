import ForwardProxy.Program
import ForwardProxy.Proofs.Uri.Targets

/-!
# Decrypted requests stay in their tunnel

A decrypted request leaves with a target put together from texts: https, the authority that the tunnel was
asked for, and the text of its own path and query. Putting it together cannot fail, since the request has been
read and so has the authority, and it changes neither of them. What else the client wrote of a server in its
target, a foreign host, a port, another scheme, is lost on the way.

The pieces are put together as texts and read again, so `rebuilt` follows the program in that, and
`rebuilt_of_isRead` says that the detour makes no difference: the result is `decrypted`, which has the parts as they
are. All else is read off `decrypted`. `read` is needed because a target that nobody has read could hold a path whose
text is no path.

`elsewhere` compares a request with any other that differs from it in the server that it names. `texts` says that an
empty path may as well be written as nothing, in front of a query. `gated` ties the request to the one that the
server's handlers get.
-/

namespace ForwardProxy.Interception

/-- The request with the target that its pieces are put together to, for a tunnel with this authority. -/
def rebuilt (tunnel : String) (r : Http.Request) : Except Uri.Part Http.Request := do
  let target := match r.uri.target? with
    | some t => t.render
    | none => "/"
  let uri ← Uri.ofTexts "https" tunnel target
  return { r with uri }

/-- Two targets that differ only in the server that they name. -/
inductive Elsewhere : Uri → Uri → Prop
  | absolute (scheme : String) (a b : Authority) (t : PathQuery) :
      Elsewhere (.absolute scheme a t) (.absolute scheme b t)
  | authority (a b : Authority) : Elsewhere (.authority a) (.authority b)

/-- What becomes of a request `r` that comes out of a tunnel to `a`. -/
structure Confined (a : Authority) (r : Http.Request) : Prop where
  /-- It is put together without fail, and it is the request that is passed on. -/
  rebuilt : rebuilt a.text r = .ok (decrypted a r)
  /-- It does not matter whether the text of its path and query is the one above or the one that was read, in
  which an empty path may stand in front of the query. -/
  texts : ∀ t text, r.uri.target? = some t → PathQuery.ofList? text.toList = some t →
    Uri.ofTexts "https" a.text text = .ok (decrypted a r).uri
  /-- The request with which the server's handlers are called, the gate in front. -/
  gated : ∀ (s : Program.Server) (remote : Address.Socket) (connect : Http.Request),
    s.atGate? remote (.inner a connect) r = (Interception.rebuilt a.text r).toOption.map ({ request := ·, remote })
  scheme : (decrypted a r).uri.scheme? = some "https"
  authority : (decrypted a r).uri.authority? = some a
  target : (decrypted a r).uri.target? = some (r.uri.target?.getD .root)
  /-- Nothing but its target changes. -/
  kept : decrypted a r = { r with uri := (decrypted a r).uri }
  /-- What it says of a server does not matter. -/
  elsewhere : ∀ u, Elsewhere r.uri u → Interception.rebuilt a.text { r with uri := u } = .ok (decrypted a r)

theorem rebuilt_of_isRead (a : Authority) {r : Http.Request} (h : r.uri.IsRead) :
    rebuilt a.text r = .ok (decrypted a r) := by
  have text : (match r.uri.target? with | some t => t.render | none => "/") =
      (r.uri.target?.getD .root).render := by
    cases r.uri.target? <;> rfl
  rw [rebuilt, text, Uri.ofTexts_of_read (by decide) a h.isProper.ofList?_render]
  rfl

/-- A decrypted request goes to the server of its tunnel, and to none other that it names. -/
theorem decrypted_requests_are_confined (a : Authority) (r : Http.Request) (read : r.uri.IsRead) :
    Confined a r where
  rebuilt := rebuilt_of_isRead a read
  texts t text target same := by
    rw [Uri.ofTexts_of_read (by decide) a same, decrypted, decryptedUri, target]
    rfl
  gated s remote connect := by rw [rebuilt_of_isRead a read]; rfl
  scheme := rfl
  authority := rfl
  target := rfl
  kept := rfl
  elsewhere u other := by
    have same : rebuilt a.text { r with uri := u } = rebuilt a.text r := by
      obtain ⟨method, uri, version, headers, body⟩ := r
      cases other <;> rfl
    rw [same, rebuilt_of_isRead a read]

theorem foreign_host_is_confined : ∃ tunnel u, Authority.ofString? "site.test:443" = some tunnel ∧
    Uri.parse? "http://other.test:80?q#f" = some u ∧ Confined tunnel { method := "CONNECT", uri := u } := by
  have read : Uri.parse? "http://other.test:80?q#f" =
      some (.absolute "http" ⟨"other.test:80", by decide⟩ ⟨"/", some "q"⟩) := by decide
  exact ⟨⟨"site.test:443", by decide⟩, _, by decide, read, decrypted_requests_are_confined _ _ ⟨_, read⟩⟩

end ForwardProxy.Interception
