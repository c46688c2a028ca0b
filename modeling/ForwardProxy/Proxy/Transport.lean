import ForwardProxy.Http.Reply
import ForwardProxy.Http.Wire
import ForwardProxy.Proxy.Error
import ForwardProxy.Proxy.Network
import ForwardProxy.Proxy.Parents
import ForwardProxy.Tls.Name

/-!
# Round trips

One request sent to its origin and the response received. A plain request goes through the parent
proxy for http, if there is one, with its whole target; an encrypted one goes through a tunnel that
the parent proxy for https opens; without such a proxy a request goes straight to its origin.
-/

namespace ForwardProxy.Proxy

/-! ## Where a request goes -/

/-- The origin that the target of a request names. -/
structure Origin where
  https : Bool
  /-- The host as typed, with the brackets of an address literal. -/
  host : String
  port : Nat
  deriving DecidableEq, Repr

namespace Origin

/-- The port of a scheme. -/
def defaultPort (https : Bool) : Nat := if https then 443 else 80

/-- The origin of an absolute target with scheme http or https. A port that is missing or that is
none below 65536 is the default of the scheme. -/
def ofUri (uri : Uri) : Except Error Origin :=
  match uri.scheme? with
  | none => .error (.invalidRequest "Request URI must be absolute")
  | some scheme =>
    if scheme = "https" || scheme = "http" then
      let https := scheme == "https"
      match uri.host? with
      | none => .error (.invalidRequest "Missing host in request URI")
      | some host => .ok ⟨https, host, uri.port?.getD (defaultPort https)⟩
    else .error (.invalidRequest ("Unsupported scheme: " ++ scheme))

/-- Host and port as in an error. -/
def authority (o : Origin) : String := o.host ++ ":" ++ toString o.port

/-- A host without the brackets of an address literal. -/
def bareHost (host : String) : String := String.ofList (Address.stripBrackets host.toList)

/-- The host and port to connect to. -/
def address (o : Origin) : HostPort := ⟨bareHost o.host, o.port⟩

end Origin

/-- How requests get out: through which proxies, and how many milliseconds a round trip may take. -/
structure Transport where
  parents : Option Parents := none
  limit : Option Nat := none
  deriving DecidableEq, Repr

/-- The way of a request. -/
inductive Way
  /-- Straight to the origin. -/
  | direct (address : HostPort)
  /-- To a proxy that is told the whole target. -/
  | forwarded (proxy : HostPort)
  /-- To a proxy that opens a tunnel to the origin. -/
  | tunnelled (proxy : HostPort)
  deriving DecidableEq, Repr

namespace Way

/-- The host and port that is dialed. -/
def address : Way → HostPort
  | direct a => a
  | forwarded a => a
  | tunnelled a => a

end Way

namespace Transport

/-- The host and port of a parent proxy. -/
def proxyAddress (proxy : Uri) : HostPort :=
  ⟨Origin.bareHost (proxy.host?.getD ""), proxy.port?.getD 80⟩

/-- The parent proxy for the scheme of an origin. -/
def proxyFor (t : Transport) (o : Origin) : Option Uri := t.parents.bind (·.forScheme o.https)

/-- The way to an origin. -/
def way (t : Transport) (o : Origin) : Way :=
  match t.proxyFor o with
  | some proxy =>
    if o.https then .tunnelled (proxyAddress proxy) else .forwarded (proxyAddress proxy)
  | none => .direct o.address

/-! ## What is sent -/

/-- The target as written: whole toward a proxy that forwards, else path and query alone. -/
def targetText (way : Way) (uri : Uri) : String :=
  match way with
  | .forwarded _ => uri.render
  | _ => (uri.target?.getD .root).render

/-- The value of the Host field for a target: its host, and its port if that is usable and not the
default of its scheme. -/
def hostField (o : Origin) (uri : Uri) : String :=
  match uri.port? with
  | some port => if port = Origin.defaultPort o.https then o.host else o.authority
  | none => o.host

/-- The request with a Host field. -/
def withHost (o : Origin) (r : Http.Request) : Http.Request :=
  if r.headers.contains "host" then r
  else { r with headers := r.headers.append "host" (Bytes.ofString (hostField o r.uri)) }

/-- The request for a tunnel to an origin. -/
def tunnelRequest (o : Origin) : Bytes :=
  Bytes.ofString ("CONNECT " ++ o.authority ++ " HTTP/1.1\r\nHost: " ++ o.authority ++ "\r\n\r\n")

/-! ## Opening a tunnel -/

/-- The reply to the request for a tunnel starts like a consent. -/
def startsConsent (b : Bytes) : Bool :=
  (Bytes.ofString "HTTP/1.1 200").isPrefixOf b || (Bytes.ofString "HTTP/1.0 200").isPrefixOf b

/-- The reply opens the tunnel: it starts like a consent and ends in a blank line. -/
def isConsent (b : Bytes) : Bool :=
  startsConsent b && (Bytes.ofString "\r\n\r\n").isSuffixOf b

/-- Further bytes cannot change whether the reply opens the tunnel. -/
def isDecided (b : Bytes) : Bool := isConsent b || (!b.isEmpty && !startsConsent b)

variable {m : Type → Type} [Monad m]

/-- Asks a proxy for a tunnel and speaks TLS to the origin through it. -/
def openTunnel (net : Network m) (o : Origin) (c : net.Conn) : m (Except Error net.Conn) := do
  net.send c (tunnelRequest o)
  let (reply, ending) ← net.gather c isDecided
  if isConsent reply then
    match ← net.secure c (Origin.bareHost o.host) with
    | .ok c => pure (.ok c)
    | .error why => pure (.error (.unreachable o.authority why))
  else if ending = .expired then pure (.error .timeout)
  else pure (.error (.unreachable o.authority "tunnel error: unsuccessful"))

/-- A connection over which the request can be sent. -/
def reach (net : Network m) (t : Transport) (o : Origin) : m (Except Error net.Conn) := do
  let failed why : Except Error net.Conn := .error (.unreachable o.authority why)
  if o.https && !Tls.isServerName (Origin.bareHost o.host) then
    return failed "invalid server name"
  match ← net.connect t.limit (t.way o).address with
  | .error why => return failed why
  | .ok c =>
    match t.way o with
    | .tunnelled _ => openTunnel net o c
    | _ =>
      if o.https then
        match ← net.secure c (Origin.bareHost o.host) with
        | .ok c => return .ok c
        | .error why => return failed why
      else return .ok c

/-- Sends a request over a connection and receives the response. -/
def exchange (net : Network m) (way : Way) (c : net.Conn) (r : Http.Request) :
    m (Except Error Http.Response) := do
  if !Http.Wire.requestIsWhole r then
    return .error (.invalidResponse "error from user's body stream")
  net.send c (Http.Wire.request r (targetText way r.uri))
  let settled := fun b => (Http.Reading.read r.method false b).isSettled
  let (reply, ending) ← net.gather c settled
  match Http.Reading.read r.method (ending == .closed) reply with
  | .whole response => return .ok response
  | .bad => return .error (.invalidResponse "invalid or incomplete response")
  | .more =>
    if ending = .expired then return .error .timeout
    else return .error (.invalidResponse "connection closed before message completed")

/-- One round trip. -/
def roundTrip (net : Network m) (t : Transport) (r : Http.Request) :
    m (Except Error Http.Response) := do
  match Origin.ofUri r.uri with
  | .error e => return .error e
  | .ok o =>
    match ← reach net t o with
    | .error e => return .error e
    | .ok c => exchange net (t.way o) c (withHost o r)

end Transport
end ForwardProxy.Proxy
