import ForwardProxy.Interception.Error
import ForwardProxy.Proxy.Session

/-!
# Decrypted requests

A request that comes out of an intercepted tunnel goes to the server that the tunnel was asked for,
whatever its own target says of a server: of its target only path and query count.
-/

namespace ForwardProxy.Interception

/-- What an intercepted connection goes through, in words: it is taken over, TLS is expected on it, it
carries decrypted requests, and it ends. -/
def stageNames : List String := ["hijacked", "local-tls-listening", "tunneling", "closed"]

/-- The target of a decrypted request: https, the authority of the tunnel, and the path and query of
the request, or the root if it has none. -/
def decryptedUri (tunnel : Authority) (uri : Uri) : Uri :=
  .absolute "https" tunnel (uri.target?.getD .root)

/-- A decrypted request on its way to the server of its tunnel. -/
def decrypted (tunnel : Authority) (r : Http.Request) : Http.Request :=
  { r with uri := decryptedUri tunnel r.uri }

/-- The request without its body. -/
def headOf (r : Http.Request) : Http.Request := { r with body := .empty }

/-- Takes over a CONNECT request: the client is to find, instead of the server that it asked for,
the certificates that `chainFor` gives for its host. -/
def intercept {m : Type → Type} [Monad m] (ctx : Proxy.Context m)
    (chainFor : String → m (Except Error (List Bytes))) (s : Proxy.Session) :
    m (Except Error (Proxy.Reply ctx.Conn)) := do
  match Proxy.connectTarget s.request.uri, s.request.uri.authority? with
  | .error fault, _ => return .error (.invalidTarget (Proxy.Error.ofTargetFault fault).message)
  | .ok _, none => return .error (.invalidTarget TargetFault.missingAuthority.message)
  | .ok target, some authority =>
    match ← chainFor target.host with
    | .error e => return .error e
    | .ok chain =>
      return .ok ⟨.connectionEstablished ctx.agent, .decrypt chain authority (headOf s.request)⟩

/-- The handler that takes over CONNECT requests and leaves all others to the inner handler. -/
def handler {m : Type → Type} [Monad m] (ctx : Proxy.Context m)
    (chainFor : String → m (Except Error (List Bytes))) (inner : Proxy.Handler m ctx.Conn) :
    Proxy.Handler m ctx.Conn := fun s => do
  if s.request.isConnect then
    match ← intercept ctx chainFor s with
    | .ok reply => return reply
    | .error e => return .plain (.ofText e.status e.message)
  else inner s

end ForwardProxy.Interception
