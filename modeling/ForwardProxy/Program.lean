import ForwardProxy.CommandLine
import ForwardProxy.Console.Session
import ForwardProxy.Moderation.Gate
import ForwardProxy.Interception.Decrypted
import ForwardProxy.Balancer.Dispatch
import ForwardProxy.Proxy.Connection

/-!
# The program

What the words of a command line come to: a text, a failure, or a server that is ready. All files that
are read and made on the way are those of a workshop.
-/

namespace ForwardProxy.Program

open CommandLine (Command Stop)

/-! ## Texts -/

/-- The version of the program. -/
def version : String := "0.1.0"

/-- The name of the program, or of one of its commands. -/
def nameOf : Option Command → String
  | none => "waypost"
  | some .run => "waypost-run"
  | some .ca => "waypost-ca"

/-- The version in words. -/
def versionText (about : Option Command) : String := nameOf about ++ " " ++ version ++ "\n"

/-- The options that count everywhere. -/
def commonHelp : String :=
  "  -c, --config <PATH>       Path to additional config file\n" ++
    "  -v, --verbose...          Increase log verbosity\n" ++
    "  -h, --help                Print help\n" ++
    "  -V, --version             Print version\n"

/-- The help. -/
def helpText : Option Command → String
  | none =>
    "Forward HTTP/HTTPS proxy with TLS interception, load balancing and request moderation\n\n" ++
      "Usage: waypost [OPTIONS] [COMMAND]\n\nCommands:\n" ++
      "  run   Run the proxy (default)\n" ++
      "  ca    Ensure the interception CA exists and print its certificate\n" ++
      "  help  Print this message or the help of the given subcommand(s)\n\nOptions:\n" ++
      "  -l, --listen <HOST:PORT>  Listen address, overriding host and port of the config\n" ++
      "      --intercept           Intercept CONNECT tunnels with forged certificates\n" ++
      "      --moderate            Hold every request until an operator approves it\n" ++
      "      --no-console          Do not read operator commands from stdin\n" ++ commonHelp
  | some .run =>
    "Run the proxy (default)\n\nUsage: waypost run [OPTIONS]\n\nOptions:\n" ++ commonHelp
  | some .ca =>
    "Ensure the interception CA exists and print its certificate\n\n" ++
      "Install the printed PEM into client trust stores so intercepted connections validate.\n\n" ++
      "Usage: waypost ca [OPTIONS]\n\nOptions:\n" ++ commonHelp

/-! ## Outcomes -/

/-- A server that is ready: its settings, the routes that it balances, if there are any, what it
shares with the operator, its interceptor and its own key pair, if it has them. -/
structure Server where
  settings : Proxy.Settings
  balancer : Option Balancer
  moderation : Moderation.State
  interceptor : Option Interception.Interceptor
  /-- Hosts whose certificates are loaded in advance. -/
  preload : List String
  identity : Option Certificate.KeyPair
  /-- The operator's commands are read. -/
  console : Bool
  deriving Repr

/-- What the words of a command line come to. -/
inductive Outcome
  /-- A text is printed. -/
  | shown (text : String)
  /-- The words make no sense. -/
  | misused (why : Stop)
  | failed (why : String)
  | serving (server : Server)
  deriving Repr

/-- The exit code of an outcome; a server that is told to stop has done well. -/
def Outcome.code : Outcome → Nat
  | shown _ | serving _ => 0
  | misused _ => 2
  | failed _ => 1

/-! ## Commands -/

/-- The certificate of the authority, which is made if there is none. -/
def printAuthority (config : Config.Layer) (env : String → Option String) (w : Certificate.Workshop) :
    Outcome × Certificate.Workshop :=
  match Interception.Interceptor.start (config.places env) w with
  | (.ok i, w) => (.shown i.ca.certificatePem, w)
  | (.error e, w) => (.failed ("Failed to load interception CA: " ++ e.message), w)

/-- The interceptor, if the configuration asks for one. -/
def startInterceptor (config : Config.Layer) (env : String → Option String)
    (w : Certificate.Workshop) :
    Except String (Option Interception.Interceptor) × Certificate.Workshop :=
  if config.intercepts then
    match Interception.Interceptor.start (config.places env) w with
    | (.ok i, w) => (.ok (some i), w)
    | (.error e, w) => (.error ("Failed to set up SSL interception: " ++ e.message), w)
  else (.ok none, w)

/-- The proxy's own key pair, if its clients are to speak TLS to it. -/
def startIdentity (s : Proxy.Settings) (w : Certificate.Workshop) :
    Except Proxy.Error (Option Certificate.KeyPair) × Certificate.Workshop :=
  match s.tlsCert, s.tlsKey with
  | some cert, some key =>
    match Certificate.listener ⟨cert, key⟩ w with
    | (.error e, w) => (.error (.certificate e), w)
    | (.ok k, w) =>
      match k.flaw? with
      | some why => (.error (.tls why), w)
      | none => (.ok (some k), w)
  | _, _ => (.ok none, w)

/-- A server: the settings are looked at first, then the interceptor is started, then the address is
bound, and last the proxy's own key pair is loaded or made. `bind` says why an address cannot be
bound. -/
def startServer (config : Config.Layer) (console : Bool) (env : String → Option String)
    (bind : HostPort → Option Files.Fault) (w : Certificate.Workshop) :
    Outcome × Certificate.Workshop :=
  match config.settings, config.routes with
  | .error e, _ => (.failed ("Invalid proxy configuration: " ++ e.message), w)
  | .ok _, .error e => (.failed ("Invalid balancer configuration: " ++ e.message), w)
  | .ok settings, .ok routes =>
    match startInterceptor config env w with
    | (.error why, w) => (.failed why, w)
    | (.ok interceptor, w) =>
      let failed (e : Proxy.Error) : Outcome := .failed ("Proxy server failed: " ++ e.message)
      match bind ⟨settings.host, settings.port⟩ with
      | some fault => (failed (.io fault.message), w)
      | none =>
        match startIdentity settings w with
        | (.error e, w) => (failed e, w)
        | (.ok identity, w) =>
          (.serving {
            settings
            balancer := if routes.isEmpty then none else some (.ofRoutes config.strategy routes)
            moderation := { enabled := config.moderates }
            interceptor
            preload := if interceptor.isSome then config.interceptor.preloadHosts else []
            identity
            console }, w)

/-- What the words come to. -/
def start (words : List String) (env : String → Option String)
    (bind : HostPort → Option Files.Fault) (w : Certificate.Workshop) :
    Outcome × Certificate.Workshop :=
  match CommandLine.parse words with
  | .error (.displayHelp about) => (.shown (helpText about), w)
  | .error (.displayVersion about) => (.shown (versionText about), w)
  | .error why => (.misused why, w)
  | .ok invocation =>
    match Config.load (Config.sources env) invocation.flags w.tree with
    | .error e => (.failed ("Failed to load configuration: " ++ e.message), w)
    | .ok config =>
      match invocation.command with
      | .ca => printAuthority config env w
      | .run => startServer config (!invocation.given.noConsole) env bind w

/-! ## Serving -/

namespace Server

variable {m : Type → Type} [Monad m]

/-- The handler behind the gate: the balancer, or none. -/
def base (s : Server) (ctx : Proxy.Context m)
    (choose : String → m (Except Balancer.Error String)) : Proxy.Handler m ctx.Conn :=
  if s.balancer.isSome then Balancer.handler ctx choose else Proxy.passthrough ctx

/-- The handler of requests that reach the proxy directly: CONNECT requests are intercepted if there
is an interceptor, and all others pass the gate, as decrypted ones do. -/
def outer (s : Server) (ctx : Proxy.Context m)
    (chainFor : String → m (Except Interception.Error (List Bytes)))
    (gated : Proxy.Handler m ctx.Conn) : Proxy.Handler m ctx.Conn :=
  if s.interceptor.isSome then Interception.handler ctx chainFor gated else gated

/-- The answer to a request that comes from a remote address, directly or inside a decrypted tunnel.
`pass` says how it leaves the gate, if it comes to the gate at all, and `abandon` what is done for a client
that has gone away in between. -/
def handle (s : Server) (ctx : Proxy.Context m)
    (chainFor : String → m (Except Interception.Error (List Bytes)))
    (choose : String → m (Except Balancer.Error String))
    (pass : Proxy.Session → m Moderation.Outcome) (abandon : m (Proxy.Reply ctx.Conn))
    (remote : Address.Socket) (service : Proxy.Service) (request : Http.Request) :
    m (Proxy.Reply ctx.Conn) :=
  let gated := Moderation.gated pass abandon (s.base ctx choose)
  match service with
  | .outer => s.outer ctx chainFor gated { request, remote }
  | .inner target _ => gated { request := Interception.decrypted target request, remote }

/-- The session with which a request comes to the gate. A CONNECT request that is intercepted does
not come there. -/
def atGate? (s : Server) (remote : Address.Socket) (service : Proxy.Service) (request : Http.Request) :
    Option Proxy.Session :=
  match service with
  | .outer => if s.interceptor.isSome && request.isConnect then none else some { request, remote }
  | .inner target _ => some { request := Interception.decrypted target request, remote }

end Server
end ForwardProxy.Program
