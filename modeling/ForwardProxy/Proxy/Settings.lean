import ForwardProxy.Proxy.LoopProbe

/-!
# Settings of the proxy

Where the proxy listens, under which name it answers, and how its requests get out. The parent
proxies of the environment are used only if that is wanted, and not if they lead back here.
-/

namespace ForwardProxy.Proxy

/-- The name under which the proxy answers if no other is set. -/
def defaultAgent : String := "Waypost/0.1.0"

/-- The host to listen on if no other is set. -/
def defaultHost : String := "127.0.0.1"

/-- The port to listen on if no other is set. -/
def defaultPort : Nat := 8080

/-- The settings of the proxy. -/
structure Settings where
  host : String := defaultHost
  port : Nat := defaultPort
  agent : String := defaultAgent
  useEnvProxy : Bool := false
  loopTestUrl : Option String := none
  /-- How many milliseconds a round trip may take. -/
  timeout : Option Nat := none
  tlsCert : Option String := none
  tlsKey : Option String := none
  deriving DecidableEq, Repr

namespace Settings

/-- The transport without any parent proxy. -/
def directTransport (s : Settings) : Transport := { limit := s.timeout }

/-- The transport that the settings and the environment ask for. With `checkLoop` the parent
proxies are tried out first; one that leads back here is not used, and a check that cannot be made
finds nothing. -/
def transport {m : Type → Type} [Monad m] (net : Network m) (listener : LoopProbe.Listener m)
    (env : String → Option String) (random : Bytes) (s : Settings) (checkLoop : Bool) :
    m Transport := do
  let direct := s.directTransport
  if !s.useEnvProxy then return direct
  match Parents.ofEnvironment env with
  | none => return direct
  | some parents =>
    let proxied := { direct with parents := some parents }
    match checkLoop, s.loopTestUrl with
    | true, some testUrl =>
      match ← LoopProbe.check net listener proxied random s.port testUrl with
      | .ok true => return direct
      | _ => return proxied
    | _, _ => return proxied

end Settings
end ForwardProxy.Proxy
