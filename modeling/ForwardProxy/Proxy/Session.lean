import ForwardProxy.Proxy.Relay
import ForwardProxy.Proxy.Transport

/-!
# Sessions

One request of a client from its arrival to its answer. The response is fetched at most once; the
body of the request goes out with the first attempt. A request for a tunnel is never sent anywhere:
its destination is dialed, and on success the answer opens the tunnel.
-/

namespace ForwardProxy.Proxy

/-- What all sessions share: how a round trip is made, how a tunnel is dialed, and the name under
which the proxy answers. -/
structure Context (m : Type → Type) where
  /-- An open connection. -/
  Conn : Type
  roundTrip : Http.Request → m (Except Error Http.Response)
  dial : HostPort → m (Except String Conn)
  agent : String

/-- The context of a transport over a network. -/
def Context.over {m : Type → Type} [Monad m] (net : Network m) (t : Transport) (agent : String) :
    Context m where
  Conn := net.Conn
  roundTrip := t.roundTrip net
  dial := net.connect none
  agent

/-- A request, the response once it is there, and the address of the client. -/
structure Session where
  request : Http.Request
  response : Option Http.Response := none
  remote : Address.Socket
  deriving DecidableEq, Repr

/-- What becomes of a client's connection behind a response. -/
inductive Takeover (Conn : Type)
  /-- It carries further requests. -/
  | nothing
  /-- Its bytes are relayed to a connection and back. -/
  | relay (conn : Conn)
  /-- It is to speak TLS with these certificates, and the requests inside are served. The target is
  that of the CONNECT request. -/
  | decrypt (chain : List Bytes) (target : Authority) (connect : Http.Request)

/-- A response and what becomes of the connection behind it. -/
structure Reply (Conn : Type) where
  response : Http.Response
  takeover : Takeover Conn := .nothing

/-- A reply that leaves the connection as it is. -/
def Reply.plain {Conn : Type} (response : Http.Response) : Reply Conn := ⟨response, .nothing⟩

/-- Something that answers requests. -/
def Handler (m : Type → Type) (Conn : Type) : Type := Session → m (Reply Conn)

namespace Session

/-- The session in words. -/
def describe (s : Session) : String :=
  "ProxySession \x7b method: " ++ s.request.method ++ ", uri: " ++ s.request.uri.render ++
    ", remote_addr: " ++ s.remote.render ++ ", has_response: " ++ toString s.response.isSome ++ " \x7d"

variable {m : Type → Type} [Monad m]

/-- The session once its request has been prepared for an attempt: the Connection field is in place
and the body has gone out. -/
def prepared (s : Session) : Session :=
  { s with request := { s.request with headers := migrate s.request.headers, body := .empty } }

/-- The request of an attempt. -/
def outbound (s : Session) : Http.Request :=
  { s.request with headers := migrate s.request.headers }

/-- Fetches the response, unless it is there already. A request for a tunnel gets the answer that
opens one, without anything being dialed. -/
def getResponse (ctx : Context m) (s : Session) : m (Except Error Unit × Session) := do
  if s.response.isSome then return (.ok (), s)
  if s.request.isConnect then
    return (.ok (), { s with response := some (.connectionEstablished ctx.agent) })
  match ← ctx.roundTrip s.outbound with
  | .ok response => return (.ok (), { s.prepared with response := some response })
  | .error e => return (.error e, s.prepared)

/-- Dials the destination of a request for a tunnel. -/
def openTunnel (ctx : Context m) (s : Session) : m (Except Error (Reply ctx.Conn)) := do
  match connectTarget s.request.uri with
  | .error fault => return .error (.ofTargetFault fault)
  | .ok target =>
    match ← ctx.dial target with
    | .error why => return .error (.unreachable target.render why)
    | .ok conn => return .ok ⟨.connectionEstablished ctx.agent, .relay conn⟩

/-- The end of a session: what its client gets. -/
def finish (ctx : Context m) (s : Session) : m (Except Error (Reply ctx.Conn)) := do
  if s.request.isConnect then s.openTunnel ctx
  else
    let (result, s) ← s.getResponse ctx
    match result, s.response with
    | .error e, _ => return .error e
    | .ok _, some response => return .ok (.plain (relay response))
    | .ok _, none => return .error (.invalidResponse "no response was produced")

/-- The end of a session, with failures as responses. -/
def answer (ctx : Context m) (s : Session) : m (Reply ctx.Conn) := do
  match ← s.finish ctx with
  | .ok reply => return reply
  | .error e => return .plain e.toResponse

end Session

/-- The handler that sends every request to its own target. -/
def passthrough {m : Type → Type} [Monad m] (ctx : Context m) : Handler m ctx.Conn :=
  fun s => s.answer ctx

end ForwardProxy.Proxy
