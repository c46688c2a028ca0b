import ForwardProxy.Balancer.Routes
import ForwardProxy.Proxy.Session

/-!
# Requests for backends

A request that is balanced goes to `http://` and the chosen backend, with the path and query it came
with; the address of its client is added as one more X-Forwarded-For field. Nothing else of it
changes.
-/

namespace ForwardProxy.Balancer

/-- The target on a backend. The backend must be an authority. -/
def backendUri (backend : String) (uri : Uri) : Except Authority.Fault Uri := do
  let authority ← Authority.read backend
  return .absolute "http" authority (uri.target?.getD .root)

/-- The session for a backend. -/
def redirect (s : Proxy.Session) (backend : String) : Except Proxy.Error Proxy.Session :=
  match backendUri backend s.request.uri with
  | .error fault => .error (.invalidRequest fault.message)
  | .ok uri =>
    .ok { s with request := { s.request with
      uri
      headers := s.request.headers.append "x-forwarded-for" (Bytes.ofString s.remote.render) } }

/-- The handler that sends every request to a backend of its host. `choose` picks the backend for a
host as the request names it. -/
def handler {m : Type → Type} [Monad m] (ctx : Proxy.Context m)
    (choose : String → m (Except Error String)) : Proxy.Handler m ctx.Conn := fun s => do
  match ← choose (s.request.namedHost) with
  | .error e => return .plain (Proxy.Error.route e).toResponse
  | .ok backend =>
    match redirect s backend with
    | .error e => return .plain e.toResponse
    | .ok s => s.answer ctx

end ForwardProxy.Balancer
