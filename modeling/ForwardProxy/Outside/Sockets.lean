import ForwardProxy.Address.Ip
import ForwardProxy.Proxy.Network
import Std.Async.DNS
import Std.Async.TCP
import Std.Async.Timer
import Std.Sync.Channel

/-!
# Sockets

Connections to other hosts, as the network that the rules of the proxy run over. This host speaks no
TLS: a connection that would have to be secured is given up.
-/

namespace ForwardProxy.Outside

open Std.Async (Async Selectable Selector)
open Std.Async.TCP.Socket (Client Server)

/-- It is closed when the program is to come to an end, and then nobody waits for a peer any longer. -/
abbrev Halt := Std.CloseableChannel Unit

/-- An open connection, and the moment by which all that is done with it has to be over. -/
structure Peer where
  client : Client
  halt : Halt
  deadline : Option Nat := none

namespace Peer

/-- How many bytes are read at once at most. -/
def chunkSize : UInt64 := 65536

/-- What the reading of bytes comes to: some bytes, the end of the connection, or the end of its
time. -/
inductive Arrival
  | bytes (b : Bytes)
  | ended
  | late

/-- Waits for bytes. -/
def receive (p : Peer) : IO Arrival := do
  let arrived : Selectable Arrival := .case (p.client.recvSelector chunkSize) fun
    | some b => return .bytes b.toList
    | none => return .ended
  let halted : Selectable Arrival := .case p.halt.recvSelector fun _ => return .ended
  let now ← IO.monoMsNow
  let waiting : Async Arrival := do
    match p.deadline with
    | none => Selectable.one #[arrived, halted]
    | some deadline =>
      let timer ← Selector.sleep (.ofNat (deadline - now))
      Selectable.one #[arrived, halted, .case timer fun _ => return .late]
  match ← waiting.block.toBaseIO with
  | .ok a => return a
  | .error _ => return .ended

/-- Sends bytes. -/
def send (p : Peer) (b : Bytes) : IO Unit := do
  if !b.isEmpty then
    discard (p.client.send b.toByteArray).block.toBaseIO

/-- Sends nothing more. -/
def shutdown (p : Peer) : IO Unit := discard p.client.shutdown.block.toBaseIO

/-- Gathers bytes until there are enough of them. -/
def gather (p : Peer) (isEnough : Bytes → Bool) : IO (Bytes × Proxy.Ending) := do
  let mut all : Bytes := []
  let mut ending : Option Proxy.Ending := none
  while ending.isNone do
    if isEnough all then ending := some .enough
    else
      match ← p.receive with
      | .late => ending := some .expired
      | .ended => ending := some .closed
      | .bytes b => all := all ++ b
  return (all, ending.getD .closed)

end Peer

/-- The addresses of a host and port. -/
def addressesOf (a : HostPort) : IO (List Std.Net.SocketAddress) := do
  let port := UInt16.ofNat a.port
  let found ← (Std.Async.DNS.getAddrInfo a.host "" none).block
  return found.toList.map fun
    | .v4 ip => .v4 ⟨ip, port⟩
    | .v6 ip => .v6 ⟨ip, port⟩

/-- Tries addresses one after the other. -/
def firstOf {α : Type} (tryOne : Std.Net.SocketAddress → IO α) :
    List Std.Net.SocketAddress → IO α
  | [] => throw (IO.userError "no address")
  | [a] => tryOne a
  | a :: rest => do
    match ← (tryOne a).toBaseIO with
    | .ok x => return x
    | .error _ => firstOf tryOne rest

/-- Opens a connection. -/
def connect (halt : Halt) (limit : Option Nat) (a : HostPort) : IO Peer := do
  let now ← IO.monoMsNow
  firstOf (fun address => do
    let client ← Client.mk
    (client.connect address).block
    return ⟨client, halt, limit.map (now + ·)⟩) (← addressesOf a)

/-- The network of this host. -/
def network (halt : Halt) : Proxy.Network IO where
  Conn := Peer
  connect limit a := do
    match ← (connect halt limit a).toBaseIO with
    | .ok p => return .ok p
    | .error e => return .error (toString e)
  secure _ _ := return .error "TLS is not available"
  send := Peer.send
  gather := Peer.gather

/-- Listens at a host and port. -/
def listen (a : HostPort) : IO Server := do
  firstOf (fun address => do
    let server ← Server.mk
    server.bind address
    server.listen 1024
    return server) (← addressesOf a)

/-- The next client, unless the program comes to an end. -/
def accept (halt : Halt) (server : Server) : IO (Option Peer) := do
  let next : Async (Option Peer) := Selectable.one #[
    .case server.acceptSelector fun client => return some ⟨client, halt, none⟩,
    .case halt.recvSelector fun _ => return none]
  match ← next.block.toBaseIO with
  | .ok p => return p
  | .error _ => return none

/-- The address of the client at the other end. This host does not tell the scope of an address. -/
def remoteOf (c : Client) : IO Address.Socket := do
  match ← c.getPeerName with
  | .v4 a => return ⟨.v4 (a.addr.octets.toList.map UInt8.toNat), a.port.toNat⟩
  | .v6 a => return ⟨.v6 (a.addr.segments.toList.map UInt16.toNat) 0, a.port.toNat⟩

end ForwardProxy.Outside
