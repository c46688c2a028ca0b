import ForwardProxy.Address
import ForwardProxy.Balancer.Strategy
import ForwardProxy.Certificate.Error
import ForwardProxy.Http.Message

/-!
# Failures of the proxy

Every way in which serving a request can fail, with its words and with the response a client gets.
A client is told the words, except that an unavailable server and an unknown route are answered
with fixed texts.
-/

namespace ForwardProxy.Proxy

/-- The text for everything that is unavailable. -/
def unavailableMessage : String := "This page is temporarily unavailable"

/-- What can go wrong while serving. -/
inductive Error
  | io (why : String)
  | http (why : String)
  | invalidConnect (why : String)
  | invalidRequest (why : String)
  | tls (why : String)
  | timeout
  | unreachable (addr why : String)
  | invalidResponse (why : String)
  | loopCheckBind (port : Nat) (why : String)
  | route (cause : Balancer.Error)
  | certificate (cause : Certificate.Error)
  deriving DecidableEq, Repr

namespace Error

/-- The failure in words. -/
def message : Error → String
  | io why => "I/O error: " ++ why
  | http why => "HTTP error: " ++ why
  | invalidConnect why => "Invalid CONNECT request: " ++ why
  | invalidRequest why => "Invalid request: " ++ why
  | tls why => "TLS error: " ++ why
  | timeout => "Upstream timeout"
  | unreachable addr why => "Failed to connect to upstream '" ++ addr ++ "': " ++ why
  | invalidResponse why => "Invalid upstream response: " ++ why
  | loopCheckBind port why => "Failed to bind loop probe on port " ++ toString port ++ ": " ++ why
  | route cause => cause.message
  | certificate cause => "Listener certificate error: " ++ cause.message

/-- The status with which a client hears of the failure. -/
def status : Error → Http.Status
  | invalidConnect _ | invalidRequest _ => 400
  | unreachable _ _ => 503
  | timeout => 504
  | route cause => cause.status
  | http _ | tls _ | invalidResponse _ => 502
  | io _ | loopCheckBind _ _ | certificate _ => 500

/-- The text with which a client hears of the failure. -/
def publicText (e : Error) : String :=
  if e.status = 503 then unavailableMessage
  else if e.status = 404 then "Not found"
  else e.message

/-- The response that tells a client of the failure. -/
def toResponse (e : Error) : Http.Response := .ofText e.status e.publicText

/-- A target that is no host and port makes the CONNECT request invalid. -/
def ofTargetFault (f : TargetFault) : Error := invalidConnect f.message

end Error

/-- The host and port that a CONNECT request asks for. -/
def connectTarget (uri : Uri) : Except TargetFault HostPort :=
  match uri.authority? with
  | none => .error .missingAuthority
  | some a => Address.readTarget a.text.toList

end ForwardProxy.Proxy
