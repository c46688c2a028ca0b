import ForwardProxy.Address
import ForwardProxy.Bytes

/-!
# What the proxy needs of a network

Opening connections to a host and port, securing a connection for a server's name, sending bytes,
and gathering what the other side sends. Every effect happens in a monad `m`, so that the same rules
run over real sockets and over peers that are described by a value.
-/

namespace ForwardProxy.Proxy

/-- How the gathering of bytes ended. -/
inductive Ending
  /-- There are enough of them. -/
  | enough
  /-- The other side has closed. -/
  | closed
  /-- The time allowed for the connection has passed. -/
  | expired
  deriving DecidableEq, Repr

/-- Connections and what can be done with them. -/
structure Network (m : Type → Type) where
  /-- An open connection. -/
  Conn : Type
  /-- Connects to a host and port. All that is done with the connection has to be over within the
  given number of milliseconds, if one is given. The error is in words. -/
  connect : Option Nat → HostPort → m (Except String Conn)
  /-- Starts to speak TLS to the server of that name. -/
  secure : Conn → String → m (Except String Conn)
  /-- Sends bytes. -/
  send : Conn → Bytes → m Unit
  /-- Gathers bytes until there are enough of them. -/
  gather : Conn → (Bytes → Bool) → m (Bytes × Ending)

end ForwardProxy.Proxy
