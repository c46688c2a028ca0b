import ForwardProxy.Address
import ForwardProxy.Config.Schema
import ForwardProxy.Files.Tree
import ForwardProxy.Interception.Interceptor
import ForwardProxy.Proxy.Settings
import ForwardProxy.Text.Blank

/-!
# Loading the configuration

Layers come from the file of the system, the file of the user, a file named on the command line, and
the flags there, in this order. The first two files need not exist. What the layers leave open has a
default, and some settings are checked only when they are asked for.
-/

namespace ForwardProxy.Config

/-! ## Failures -/

/-- Why there is no configuration. -/
inductive Error
  | unreadable (path : String)
  | malformed (path : String)
  | invalid (field why : String)
  deriving DecidableEq, Repr

/-- The failure in words. -/
def Error.message : Error → String
  | unreadable path => "Failed to read config file " ++ path
  | malformed path => "Failed to parse config file " ++ path
  | invalid field why => "Invalid config value for " ++ field ++ ": " ++ why

/-! ## Files -/

/-- The files that are always looked for. -/
structure Sources where
  system : String
  user : String
  deriving DecidableEq, Repr

/-- The part of the command line that has a say in the configuration. -/
structure Flags where
  config : Option String := none
  listen : Option String := none
  intercept : Bool := false
  moderate : Bool := false
  deriving DecidableEq, Repr

/-- What comes of reading a file. -/
abbrev Reader := String → Except Files.Fault Bytes

/-- The layer in a file, if there is a file. -/
def loadFile (read : Reader) (path : String) : Except Error (Option Layer) :=
  match read path with
  | .error .notFound => .ok none
  | .error _ => .error (.unreadable path)
  | .ok content =>
    match Bytes.utf8? content with
    | none => .error (.unreadable path)
    | some text =>
      match Layer.read text with
      | none => .error (.malformed path)
      | some l => .ok (some l)

/-- The layer in a file that need not exist is laid over another. -/
def addFile (read : Reader) (below : Layer) (path : String) : Except Error Layer := do
  match ← loadFile read path with
  | some l => return below.merge l
  | none => return below

/-- The layer in a file that has to exist is laid over another. -/
def addNamedFile (read : Reader) (below : Layer) (path : String) : Except Error Layer := do
  match ← loadFile read path with
  | some l => return below.merge l
  | none => throw (.unreadable path)

/-- The layer of the flags. The address to listen on sets host and port. -/
def Flags.layer (f : Flags) : Except Error Layer := do
  let address ← match f.listen with
    | none => pure none
    | some listen =>
      match Address.readListen listen.toList with
      | some a => pure (some a)
      | none => throw (.invalid "--listen" ("expected HOST:PORT, got '" ++ listen ++ "'"))
  return {
    proxy := { host := address.map HostPort.host, port := address.map HostPort.port }
    interceptor := { enabled := if f.intercept then some true else none }
    moderation := { enabled := if f.moderate then some true else none } }

/-- Loads the configuration, however files are read. -/
def loadBy (read : Reader) (s : Sources) (f : Flags) : Except Error Layer := do
  let l ← addFile read {} s.system
  let l ← addFile read l s.user
  let l ← match f.config with
    | some path => addNamedFile read l path
    | none => pure l
  return l.merge (← f.layer)

/-- Loads the configuration from a tree of files. -/
def load (s : Sources) (f : Flags) (t : Files.Tree) : Except Error Layer :=
  loadBy (fun path => Files.Tree.read path t) s f

/-! ## Places -/

/-- The name of the directories that belong to the proxy. -/
def directoryName : String := "waypost"

/-- The user's directory in an environment. -/
def homeOf (env : String → Option String) : Option String := (env "HOME").filter fun h => h ≠ ""

/-- A directory of the user: the one under a name in the environment, if that
is an absolute path, else one below the user's own directory, else one here. -/
def userDirectory (env : String → Option String) (name below here : String) : String :=
  match (env name).filter Files.Tree.isAbsolute, homeOf env with
  | some d, _ => Files.Tree.under d directoryName
  | none, some home => Files.Tree.under (Files.Tree.under home below) directoryName
  | none, none => Files.Tree.under here directoryName

/-- The directory for data. -/
def dataDirectory (env : String → Option String) : String :=
  userDirectory env "XDG_DATA_HOME" ".local/share" "."

/-- The files that are always looked for. -/
def sources (env : String → Option String) : Sources :=
  ⟨"/etc/waypost/config.toml",
    Files.Tree.under (userDirectory env "XDG_CONFIG_HOME" ".config" ".config") "config.toml"⟩

/-! ## Settings -/

namespace Layer

/-- The settings of the proxy itself. -/
def settings (l : Layer) : Except Error Proxy.Settings :=
  let p := l.proxy
  let port := p.port.getD Proxy.defaultPort
  if p.tlsCert.isSome != p.tlsKey.isSome then
    .error (.invalid "proxy.tls_cert" "tls_cert and tls_key must be set together")
  else if port = 0 then .error (.invalid "proxy.port" "port must be non-zero")
  else
    .ok {
      host := p.host.getD Proxy.defaultHost
      port
      agent := p.agent.getD Proxy.defaultAgent
      useEnvProxy := p.useEnvProxy.getD false
      loopTestUrl := p.loopTestUrl.filter fun u => u ≠ ""
      timeout := match p.timeout.getD 0 with
        | 0 => none
        | seconds => some (1000 * seconds)
      tlsCert := p.tlsCert
      tlsKey := p.tlsKey }

/-- Where the interceptor keeps its files. -/
def places (l : Layer) (env : String → Option String) : Interception.Places :=
  let i := l.interceptor
  let base := dataDirectory env
  ⟨⟨i.caCert.getD (Files.Tree.under base "ca_cert.pem"), i.caKey.getD (Files.Tree.under base "ca_key.pem")⟩,
    i.hostCertDir.getD (Files.Tree.under base "hosts")⟩

/-- CONNECT requests are intercepted. -/
def intercepts (l : Layer) : Bool := l.interceptor.enabled.getD false

/-- Requests are moderated from the start. -/
def moderates (l : Layer) : Bool := l.moderation.enabled.getD false

/-- The strategy of the balancer. -/
def strategy (l : Layer) : Balancer.Strategy := l.balancer.strategy.getD .first

/-- The routes of the balancer, in which no backend may be blank. -/
def routes (l : Layer) : Except Error Balancer.Routes :=
  match l.balancer.routes.find? fun r => r.2.any fun b => Text.allBlank b.toList with
  | some (host, _) => .error (.invalid ("balancer.routes." ++ host) "backend address must not be empty")
  | none => .ok l.balancer.routes

end Layer
end ForwardProxy.Config
