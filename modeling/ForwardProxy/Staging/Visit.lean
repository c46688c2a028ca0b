import ForwardProxy.Certificate.Facts
import ForwardProxy.Interception.Decrypted
import ForwardProxy.Proxy.Connection
import ForwardProxy.Staging.World

/-!
# Visits of a client

A client with one connection to the proxy in a rehearsal. It sends bytes, speaks TLS and reads what
it is sent; in between the origin of a relay gets its turn.
-/

namespace ForwardProxy.Staging

/-- How the proxy answers a request inside a decrypted tunnel. The CONNECT request comes first. -/
abbrev InnerHandler := Http.Request → Proxy.Handler Play Nat

/-- The way from a connection to handlers and the other ends of relays. -/
def backTo (remote : Address.Socket) (outer : Proxy.Handler Play Nat) (inner : InnerHandler) :
    Proxy.Back Play Nat where
  serve
    | .outer, request => outer { request, remote }
    | .inner target connect, r => inner connect { request := Interception.decrypted target r, remote }
  pass n b := modify (·.deliver n b)
  finish n := modify (·.finish n)

/-- A connection to the proxy, what the client has been sent and not read, and whether that was the
last. -/
structure Visit where
  stage : Proxy.Stage Nat
  inbox : Bytes := []
  ended : Bool := false

namespace Visit

variable (back : Proxy.Back Play Nat)

/-- Something happens to the connection. -/
def happen (v : Visit) (e : Proxy.Event) : Play Visit := do
  let (out, stage) ← v.stage.step back e
  return ⟨stage, v.inbox ++ out.bytes, v.ended || out.last⟩

/-- The origin of a relay gets its turn. -/
def settle (v : Visit) : Play Visit := do
  match v.stage with
  | .relaying conn _ false =>
    let (b, closed) ← modifyGet (·.collect conn)
    let v ← if b.isEmpty then pure v else v.happen back (.relayed b)
    if closed then v.happen back .originEnded else pure v
  | _ => return v

/-- The client sends bytes. -/
def send (v : Visit) (b : Bytes) : Play Visit := do settle back (← v.happen back (.received b))

/-- The client sends its last. -/
def hangUp (v : Visit) : Play Visit := do settle back (← v.happen back .ended)

/-- The certificates are good for a host in the eyes of a client that trusts one authority. -/
def vouches (root : Bytes) (host : String) : List Bytes → Bool
  | [] => false
  | leaf :: _ =>
    match Certificate.Document.read leaf with
    | none => false
    | some d =>
      Tls.isServerName host && d.isIssuedBy root && ((d.altNames?.getD []).any (·.covers host))

/-- The client starts TLS with a host and trusts one authority, or none. The result is the
certificates that it accepts. -/
def shakeHands (root : Option Bytes) (host : String) (v : Visit) : Play (Option (List Bytes) × Visit) := do
  match v.stage, root with
  | .handshake chain _, some root =>
    if vouches root host chain then return (some chain, ← v.happen back .secured)
    else return (none, ← v.happen back .ended)
  | _, _ => return (none, ← v.happen back .ended)

/-- The client reads a response to a request with the given method. -/
def readMessage (method : String) (v : Visit) : Option Message × Visit :=
  match Message.read (.response method) v.ended v.inbox with
  | some (m, rest) => (some m, { v with inbox := rest })
  | none => (none, v)

/-- The client reads a number of bytes. -/
def readBytes (n : Nat) (v : Visit) : Option Bytes × Visit :=
  if v.inbox.length < n then (none, v)
  else (some (v.inbox.take n), { v with inbox := v.inbox.drop n })

/-- The client reads everything. -/
def readAll (v : Visit) : Bytes × Visit := (v.inbox, { v with inbox := [] })

end Visit
end ForwardProxy.Staging
