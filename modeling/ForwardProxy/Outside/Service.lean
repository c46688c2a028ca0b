import ForwardProxy.Outside.Disk
import ForwardProxy.Outside.Sockets
import ForwardProxy.Program
import ForwardProxy.Proxy.Connection
import Std.Sync.Channel
import Std.Sync.Mutex

/-!
# Serving

A server at work: connections of clients, each on a thread of its own, the gate that their requests
share, and the operator's console. What happens to a connection is put into one queue of events, so
that the rules see one event after the other.
-/

namespace ForwardProxy.Outside

/-- Does something on a thread of its own. Failures end it. -/
def inThread (act : IO Unit) : IO Unit := discard (IO.asTask act .dedicated)

/-- What all connections and the console share. -/
structure Service where
  server : Program.Server
  halt : Halt
  transport : Proxy.Transport
  moderation : Std.Mutex Moderation.State
  balancer : Std.Mutex Balancer
  /-- The interceptor, and what it makes certificates from. -/
  interception : Std.Mutex (Option Interception.Interceptor × Certificate.Workshop)

namespace Service

/-- What all share at the start. -/
def make (server : Program.Server) (halt : Halt) (transport : Proxy.Transport) (w : Certificate.Workshop) :
    IO Service := do
  let moderation ← Std.Mutex.new server.moderation
  let balancer ← Std.Mutex.new (server.balancer.getD (.ofRoutes .first []))
  let interception ← Std.Mutex.new (server.interceptor, w)
  return { server, halt, transport, moderation, balancer, interception }

/-- How requests get out. -/
def ctx (s : Service) : Proxy.Context IO :=
  Proxy.Context.over (network s.halt) s.transport s.server.settings.agent

/-! ## Choices and certificates -/

/-- The backend for a host. -/
def choose (s : Service) (host : String) : IO (Except Balancer.Error String) := do
  let draw ← IO.rand 0 0xFFFFFFFF
  s.balancer.atomically do
    let (backend, b) := (← get).chooseNamed draw host
    set b
    return backend

/-- The certificates for a host. Files are looked at and written while no other connection does so. -/
def chainFor (s : Service) (host : String) : IO (Except Interception.Error (List Bytes)) :=
  s.interception.atomically do
    match ← get with
    | (none, _) => return .error (.invalidTarget "no interceptor")
    | (some i, w) =>
      let leaf := Interception.leafPaths i.leaves (Text.lower host)
      let paths := [leaf.cert, leaf.key]
      let tree ← Disk.copy paths
      let (chain, i, w) := i.chainFor host { w with tree }
      Disk.write paths tree w.tree
      set (some i, w)
      return chain

/-- Loads the certificates of hosts in advance. -/
def preload (s : Service) : IO Unit := s.server.preload.forM fun host => discard (s.chainFor host)

/-! ## The gate -/

/-- A move of a request at the gate: the one that is next, or the one by which its client leaves. -/
def move (s : Service) (isGone : Bool) (t : Moderation.Task) : IO (Option Moderation.Progress) :=
  s.moderation.atomically do
    let state ← get
    let next := t.advance Moderation.recordInLog state
    match if isGone then (t.cancel state).or next else next with
    | none => return none
    | some (state, progress) =>
      set state
      return some progress

/-- Passes the gate. A request that can make no move waits a while before it tries again. -/
def pass (s : Service) (gone : IO.Ref Bool) (session : Proxy.Session) : IO Moderation.Outcome := do
  let mut task : Moderation.Task := { session }
  let mut outcome : Option Moderation.Outcome := none
  while outcome.isNone do
    match ← s.move (← gone.get) task with
    | some progress => task := { task with progress }
    | none =>
      match task.progress with
      | .done o => outcome := some o
      | _ => IO.sleep 20
  return outcome.getD .cancelled

/-- A client that has gone away is told nothing more. -/
def abandon {α : Type} : IO α := throw (IO.userError "the client has gone away")

/-! ## Connections -/

/-- The way from a connection to the handlers. -/
def back (s : Service) (remote : Address.Socket) (gone : IO.Ref Bool) : Proxy.Back IO Peer where
  serve := s.server.handle s.ctx s.chainFor s.choose (s.pass gone) abandon remote
  pass := Peer.send
  finish := Peer.shutdown

/-- Puts what a peer sends into a queue, on a thread of its own. -/
def listenTo (peer : Peer) (events : Std.CloseableChannel.Sync Proxy.Event)
    (received : Bytes → Proxy.Event) (last : Proxy.Event) (atEnd : IO Unit) : IO Unit :=
  inThread do
    let mut reading := true
    while reading do
      match ← peer.receive with
      | .bytes b => discard (events.send (received b)).toBaseIO
      | _ =>
        reading := false
        atEnd
        discard (events.send last).toBaseIO

/-- The other end of a relay. -/
def origin? : Proxy.Stage Peer → Option Peer
  | .relaying conn _ _ => some conn
  | _ => none

/-- Serves a client until its connection is closed. -/
def serve (s : Service) (client : Peer) (remote : Address.Socket) : IO Unit := do
  let gone ← IO.mkRef false
  let events ← Std.CloseableChannel.Sync.new none
  listenTo client events .received .ended (gone.set true)
  let back := s.back remote gone
  let mut stage : Proxy.Stage Peer :=
    match s.server.identity with
    | some k => .handshake k.chain .outer
    | none => .plain
  let mut isOpen := true
  while isOpen do
    match ← events.recv with
    | none => isOpen := false
    | some event =>
      let wasRelaying := (origin? stage).isSome
      match ← (stage.step back event).toBaseIO with
      | .error _ =>
        client.shutdown
        isOpen := false
      | .ok (out, next) =>
        client.send out.bytes
        if out.last then client.shutdown
        if let some conn := origin? next then
          if !wasRelaying then listenTo conn events .relayed .originEnded (pure ())
        stage := next
        isOpen := !(stage matches .closed)

/-- What is done with a new connection at the time. -/
abbrev Reception := IO.Ref (Peer → Address.Socket → IO Unit)

/-- Takes connections until the program comes to an end. -/
def acceptAll (halt : Halt) (listener : Std.Async.TCP.Socket.Server) (reception : Reception) : IO Unit :=
  inThread do
    let mut accepting := true
    while accepting do
      match ← accept halt listener with
      | none => accepting := false
      | some peer =>
        let receive ← reception.get
        inThread do receive peer (← remoteOf peer.client)

/-! ## The loop probe -/

/-- Answers a request of the loop probe and writes down its target. -/
def answerProbe (seen : IO.Ref (List Uri)) (client : Peer) (_ : Address.Socket) : IO Unit := do
  let isWhole (b : Bytes) : Bool := !(Http.scanRequestHead b matches .more)
  match Http.scanRequestHead (← client.gather isWhole).1 with
  | .done head _ =>
    seen.modify (· ++ [head.uri])
    client.send (Http.Wire.response ⟨head.method, head.version, true⟩ (.ofText 200 "probe")).1
  | _ => pure ()
  client.shutdown

/-- Listens for the loop probe where the server is going to listen. -/
def probeListener (reception : Reception) : IO (Proxy.LoopProbe.Listener IO) := do
  let seen ← IO.mkRef []
  return {
    bind := fun _ => do
      reception.set (answerProbe seen)
      return .ok ()
    stop := seen.get }

/-! ## The console -/

/-- Carries out the operator's commands until there are no more. -/
def console (s : Service) : IO Unit :=
  discard <| inThread do
    let input ← IO.getStdin
    let mut reading := true
    while reading do
      let line ← input.getLine
      if line.isEmpty then reading := false
      else
        let (reply, quit) ← s.moderation.atomically do
          let (reply, state, quit) := Console.answer true (← get) line
          set state
          return (reply, quit)
        if let some text := reply then
          IO.println text
          (← IO.getStdout).flush
        reading := !quit

end Service
end ForwardProxy.Outside
