import ForwardProxy.Http.Inbound
import ForwardProxy.Proxy.Session

/-!
# Client connections

What the proxy does with one connection: it may have to speak TLS first, then it serves requests,
and a request for a tunnel turns it into a relay or into a connection that is decrypted. Something
happens to a connection, and the outcome is what the client is sent and the connection afterwards.
-/

namespace ForwardProxy.Proxy

/-- Who serves the requests of a connection. -/
inductive Service
  /-- The proxy, for requests that reach it directly. -/
  | outer
  /-- The proxy, for requests inside a decrypted tunnel: the target of the CONNECT request and the
  request itself. -/
  | inner (target : Authority) (connect : Http.Request)
  deriving Repr

/-- What a connection is for at the moment. -/
inductive Stage (Conn : Type)
  /-- The client is expected to start TLS and will be shown these certificates. -/
  | handshake (chain : List Bytes) (service : Service)
  /-- Requests are served. -/
  | requests (service : Service) (inbound : Http.Inbound)
  /-- Bytes are relayed; the flags say which of client and origin have sent their last. -/
  | relaying (conn : Conn) (clientEnded originEnded : Bool)
  | closed

/-- What happens to a connection. -/
inductive Event
  /-- The client has sent bytes. -/
  | received (b : Bytes)
  /-- The client has sent its last. -/
  | ended
  /-- The client has accepted the certificates. -/
  | secured
  /-- The origin of a relay has sent bytes. -/
  | relayed (b : Bytes)
  /-- The origin of a relay has sent its last. -/
  | originEnded
  deriving Repr

/-- What the client is sent, and whether that was the last. -/
structure Output where
  bytes : Bytes := []
  last : Bool := false
  deriving DecidableEq, Repr

/-- How a connection reaches the rest of the proxy. -/
structure Back (m : Type → Type) (Conn : Type) where
  /-- Answers a request. -/
  serve : Service → Http.Request → m (Reply Conn)
  /-- Passes bytes on to the origin of a relay. -/
  pass : Conn → Bytes → m Unit
  /-- Tells the origin of a relay that no more bytes will come. -/
  finish : Conn → m Unit

namespace Stage

variable {m : Type → Type} [Monad m] {Conn : Type}

/-- The client is sent these bytes and the connection ends. -/
def close (bytes : Bytes) : Output × Stage Conn := (⟨bytes, true⟩, .closed)

/-- The connection is taken over behind an answer; what has come in already goes along. There is no
tunnel inside a tunnel: there the connection ends, and the answer is not sent. `before` is what the client
is sent in front of the answer. -/
def takeOver (back : Back m Conn) (service : Service) (before answer : Bytes) (inbound : Http.Inbound)
    (takeover : Takeover Conn) : m (Output × Stage Conn) :=
  match service, takeover with
  | .inner _ _, _ => pure (close before)
  | .outer, .nothing => pure (close (before ++ answer))
  | .outer, .relay conn => do
    if !inbound.buffer.isEmpty then back.pass conn inbound.buffer
    if inbound.ended then back.finish conn
    pure (⟨before ++ answer, false⟩, .relaying conn inbound.ended false)
  | .outer, .decrypt chain target connect =>
    if inbound.buffer.isEmpty && !inbound.ended then
      pure (⟨before ++ answer, false⟩, .handshake chain (.inner target connect))
    else pure (close (before ++ answer))

/-- Serves requests until more bytes are needed. Every request takes bytes, so `limit` need only
exceed the number of bytes there are. `sent` is what the client has been sent so far. -/
def serveUpTo (back : Back m Conn) (service : Service) :
    (limit : Nat) → (sent : Bytes) → Http.Inbound → m (Output × Stage Conn)
  | 0, sent, inbound => pure (⟨sent, false⟩, .requests service inbound)
  | limit + 1, sent, inbound =>
    match inbound.next with
    | (.wait, inbound) =>
      match inbound.phase with
      | .closed => pure (close sent)
      | _ => pure (⟨sent, false⟩, .requests service inbound)
    | (.send bytes, _) => pure (close (sent ++ bytes))
    | (.request r, inbound) => do
      let reply ← back.serve service r
      let (bytes, inbound) := inbound.answer reply.response
      match inbound.phase with
      | .handedOver => takeOver back service sent bytes inbound reply.takeover
      | .closed => pure (close (sent ++ bytes))
      | _ => serveUpTo back service limit (sent ++ bytes) inbound

/-- Serves the requests that have come in whole. -/
def serveAll (back : Back m Conn) (service : Service) (inbound : Http.Inbound) :
    m (Output × Stage Conn) :=
  serveUpTo back service (inbound.buffer.length + 1) [] inbound

/-- A connection on which requests can be sent from the start. -/
def plain : Stage Conn := .requests .outer {}

/-- Something happens. -/
def step (back : Back m Conn) : Stage Conn → Event → m (Output × Stage Conn)
  | .handshake _ service, .secured => pure ({}, .requests service {})
  | .handshake chain service, .received [] => pure ({}, .handshake chain service)
  | .handshake _ _, _ => pure (close [])
  | .requests service inbound, .received b =>
    serveAll back service { inbound with buffer := inbound.buffer ++ b }
  | .requests service inbound, .ended => serveAll back service { inbound with ended := true }
  | .relaying conn c o, .received b => do
    back.pass conn b
    pure ({}, .relaying conn c o)
  | .relaying conn _ o, .ended => do
    back.finish conn
    pure (if o then close [] else ({}, .relaying conn true false))
  | .relaying conn c o, .relayed b => pure (⟨b, false⟩, .relaying conn c o)
  | .relaying conn c _, .originEnded =>
    pure (if c then close [] else (⟨[], true⟩, .relaying conn false true))
  | stage, _ => pure ({}, stage)

end Stage
end ForwardProxy.Proxy
