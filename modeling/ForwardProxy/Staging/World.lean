import ForwardProxy.Balancer.Dispatch
import ForwardProxy.Interception.Interceptor
import ForwardProxy.Proxy.Settings
import ForwardProxy.Staging.Transcript
import ForwardProxy.Tls.Name

/-!
# A world to rehearse in

A network whose other ends are described by a value. There is one scripted server, which stands for
parent proxies and for origins behind them and writes down what it is asked; a server that sends
back what it gets; and the loop probe of the proxy itself. Everything else refuses connections.
-/

namespace ForwardProxy.Staging

/-- What the scripted server does with a connection. -/
structure Script where
  /-- The reply to a request for a tunnel. -/
  consent : Bytes := Bytes.ofString "HTTP/1.1 200 OK\r\n\r\n"
  /-- Inside a tunnel it does not speak TLS. -/
  garbage : Bool := false
  /-- It never answers. -/
  silent : Bool := false
  /-- It closes instead of answering. -/
  close : Bool := false
  /-- It answers with these bytes. -/
  raw : Option Bytes := none
  status : Nat := 200
  reason : String := "Scripted"
  fields : List (String × Bytes) := []
  body : Bytes := []
  deriving DecidableEq, Repr

/-- What the scripted server writes down. -/
inductive Note
  /-- The first line of a request for a tunnel. -/
  | tunnel (line : String)
  /-- A request, and whether it came through a tunnel. -/
  | request (message : Message) (inside : Bool)
  deriving DecidableEq, Repr

/-- Who is at the other end of a connection. -/
inductive Role
  | scripted
  | echo
  | probe
  /-- It takes everything and never answers. -/
  | silent
  deriving DecidableEq, Repr

/-- How far the other end of a connection is with a tunnel. -/
inductive Tunnel
  | absent
  /-- TLS is to start. -/
  | opened
  | inside
  deriving DecidableEq, Repr

/-- The other end of a connection: what it has been sent and not dealt with, and what it has sent
that has not been gathered. -/
structure Peer where
  role : Role
  pending : Bytes := []
  outbox : Bytes := []
  closed : Bool := false
  tunnel : Tunnel := .absent
  deriving DecidableEq, Repr

/-- The world. -/
structure World where
  script : Script := {}
  /-- What the scripted server has written down. -/
  notes : List Note := []
  /-- Who listens where. -/
  listeners : List (HostPort × Role) := []
  /-- The other ends of all connections, by number. -/
  peers : List Peer := []
  /-- The name that the scripted server can prove. -/
  identity : Tls.AltName := .dns "secure.test"
  /-- The proof is believed. -/
  trusted : Bool := true
  /-- The port is taken by somebody else. -/
  occupied : Bool := false
  /-- Requests that have reached the probe. -/
  probed : List Uri := []
  balancer : Balancer := .ofRoutes .first []
  /-- How many random choices have been made. -/
  draws : Nat := 0
  /-- The interceptor, and the files and the mint that it works with. -/
  interception : Option (Interception.Interceptor × Certificate.Workshop) := none
  deriving Repr

/-- What happens in a world. -/
abbrev Play := StateM World

namespace World

/-- The names of fields that settle the length of a body. -/
def hasLength (fields : List (String × Bytes)) : Bool :=
  fields.any fun f => ["content-length", "transfer-encoding"].contains (Text.lower f.1)

/-- The answer of the scripted server to a request. -/
def scriptedAnswer (s : Script) (line : String) : Bytes :=
  match s.raw with
  | some b => b
  | none =>
    let fields := s.fields ++
      (if hasLength s.fields then [] else [("content-length", Http.Wire.decimal s.body.length)])
    Bytes.ofString ("HTTP/1.1 " ++ toString s.status ++ " " ++ s.reason ++ "\r\n") ++
      fields.flatMap (fun f => Http.Wire.fieldLine f.1 f.2) ++ Http.Wire.lineEnd ++
      (if line.startsWith "HEAD " then [] else s.body)

/-- The scripted server deals with what it has been sent. -/
def scriptedTurn (w : World) (p : Peer) : World × Peer :=
  if p.tunnel = .absent && (Bytes.ofString "CONNECT ").isPrefixOf p.pending then
    match Message.splitHead p.pending with
    | none => (w, p)
    | some (head, rest) =>
      let line := Bytes.latin1 ((Message.lines head).headD [])
      let w := { w with notes := w.notes ++ [Note.tunnel line] }
      let p := { p with pending := rest, outbox := p.outbox ++ w.script.consent }
      if w.script.garbage then (w, { p with outbox := p.outbox ++ [0], closed := true })
      else if (Bytes.ofString "HTTP/1.1 200").isPrefixOf w.script.consent then
        (w, { p with tunnel := .opened })
      else (w, { p with closed := true })
  else
    match Message.read .request false p.pending with
    | none => (w, p)
    | some (message, rest) =>
      let w := { w with notes := w.notes ++ [Note.request message (p.tunnel == .inside)] }
      let p := { p with pending := rest }
      if w.script.silent then (w, p)
      else if w.script.close then (w, { p with closed := true })
      else
        (w, { p with
          outbox := p.outbox ++ scriptedAnswer w.script message.line, closed := true })

/-- The probe deals with what it has been sent. -/
def probeTurn (w : World) (p : Peer) : World × Peer :=
  match Http.scanRequestHead p.pending with
  | .done head rest =>
    ({ w with probed := w.probed ++ [head.uri] },
      { p with
        pending := rest
        outbox := p.outbox ++
          (Http.Wire.response ⟨head.method, head.version, true⟩ (.ofText 200 "probe")).1 })
  | _ => (w, p)

/-- The other end of a connection is sent bytes. -/
def deliver (w : World) (n : Nat) (b : Bytes) : World :=
  match w.peers[n]? with
  | none => w
  | some p =>
    let p := { p with pending := p.pending ++ b }
    let (w, p) := match p.role with
      | .scripted => scriptedTurn w p
      | .probe => probeTurn w p
      | .echo => (w, { p with outbox := p.outbox ++ p.pending, pending := [] })
      | .silent => (w, { p with pending := [] })
    { w with peers := w.peers.set n p }

/-- The other end of a connection hears that it will be sent no more. -/
def finish (w : World) (n : Nat) : World :=
  match w.peers[n]? with
  | none => w
  | some p => { w with peers := w.peers.set n { p with closed := true } }

/-- Takes what the other end of a connection has sent, and whether it has closed. -/
def collect (w : World) (n : Nat) : (Bytes × Bool) × World :=
  match w.peers[n]? with
  | none => (([], true), w)
  | some p => ((p.outbox, p.closed), { w with peers := w.peers.set n { p with outbox := [] } })

/-- A new connection to a host and port. -/
def connect (w : World) (a : HostPort) : Except String Nat × World :=
  match w.listeners.find? fun l => l.1 = a with
  | none => (.error "tcp connect error: Connection refused (os error 111)", w)
  | some l => (.ok w.peers.length, { w with peers := w.peers ++ [{ role := l.2 }] })

/-- TLS starts on a connection, if the other end is ready for it and can prove its name. -/
def secure (w : World) (n : Nat) (name : String) : Except String Nat × World :=
  match w.peers[n]? with
  | none => (.error "not connected", w)
  | some p =>
    if p.tunnel = .opened && p.outbox.isEmpty && w.trusted && w.identity.covers name then
      (.ok n, { w with peers := w.peers.set n { p with tunnel := .inside, pending := [] } })
    else (.error "invalid peer certificate", w)

/-- The network of the world. -/
def network : Proxy.Network Play where
  Conn := Nat
  connect _ a := modifyGet (·.connect a)
  secure n name := modifyGet (·.secure n name)
  send n b := modify (·.deliver n b)
  gather n enough := do
    let (b, closed) ← modifyGet (·.collect n)
    return (b, if enough b then .enough else if closed then .closed else .expired)

/-- Listening on a port of this host for the loop probe. -/
def listener : Proxy.LoopProbe.Listener Play where
  bind port := do
    if (← get).occupied then return .error (Files.Fault.message .addressInUse)
    modify fun w => { w with listeners := (⟨"127.0.0.1", port⟩, .probe) :: w.listeners }
    return .ok ()
  stop := do
    modify fun w => { w with listeners := w.listeners.filter fun l => l.2 ≠ .probe }
    return (← get).probed

/-- Picks a backend with the balancer of the world. -/
def choose (host : String) : Play (Except Balancer.Error String) := do
  let w ← get
  let (result, balancer) := w.balancer.chooseNamed w.draws host
  set { w with balancer, draws := w.draws + 1 }
  return result

/-- The certificates of the interceptor for a host. -/
def chainFor (host : String) : Play (Except Interception.Error (List Bytes)) := do
  match (← get).interception with
  | none => return .error (.io "no interceptor")
  | some (i, shop) =>
    let (result, interception) := i.chainFor host shop
    modify fun w => { w with interception := some interception }
    return result

end World
end ForwardProxy.Staging
