import ForwardProxy.Outside.Service
import Std.Async.Signal
import Std.Time.DateTime.Timestamp

/-!
# The command

The program as it is called: what it needs of its surroundings is gathered, the rules say what the words
come to, and that is carried out.
-/

namespace ForwardProxy

open Outside

/-- The variables of the environment that count. -/
def variableNames : List String :=
  ["HOME", "XDG_CONFIG_HOME", "XDG_DATA_HOME", "HTTP_PROXY", "http_proxy", "HTTPS_PROXY", "https_proxy"]

/-- The environment, as far as it counts. -/
def environmentNow : IO (String → Option String) := do
  let found ← variableNames.filterMapM fun name => do
    return (← IO.getEnv name).map fun value => (name, value)
  return fun name => found.lookup name

/-- Random bytes and the present moment. -/
def mintNow : IO Certificate.Mint := do
  let seed ← IO.getRandomBytes 32
  let now ← Std.Time.Timestamp.now
  return ⟨⟨seed.toList, 0⟩, now.toSecondsSinceUnixEpoch.val.toNat⟩

/-- The paths under which a configuration keeps certificates and keys. -/
def pathsIn (config : Config.Layer) (env : String → Option String) : List String :=
  let places := config.places env
  let own := match config.settings with
    | .ok s => s.tlsCert.toList ++ s.tlsKey.toList
    | .error _ => []
  [places.authority.cert, places.authority.key, places.leaves] ++ own

/-- The cause of a failure to listen. -/
def faultOf : IO.Error → Files.Fault
  | .resourceBusy _ _ => .addressInUse
  | .alreadyExists _ _ _ => .addressInUse
  | .noSuchThing _ _ _ | .noFileOrDirectory _ _ _ => .notFound
  | _ => .accessDenied

/-- Serves until it is interrupted. -/
def serve (server : Program.Server) (transport : Proxy.Transport) (w : Certificate.Workshop) (halt : Halt)
    (reception : Service.Reception) : IO Unit := do
  let service ← Service.make server halt transport w
  reception.set service.serve
  service.preload
  if server.console then service.console
  let interrupt ← Std.Async.Signal.Waiter.mk .sigint false
  discard (IO.wait (← interrupt.wait))

/-- Listens where the configuration says, and finds the way out, which may need a loop probe there. -/
def prepare (config : Config.Layer) (env : String → Option String) (random : Bytes)
    (halt : Halt) (reception : Service.Reception) :
    IO (Option Files.Fault × Proxy.Transport) := do
  match config.settings with
  | .error _ => return (none, {})
  | .ok s =>
    match ← (listen ⟨s.host, s.port⟩).toBaseIO with
    | .error e => return (some (faultOf e), {})
    | .ok listener =>
      Service.acceptAll halt listener reception
      let probe ← Service.probeListener reception
      return (none, ← s.transport (network halt) probe env random true)

/-- Carries out what the words come to. -/
def run (words : List String) : IO Nat := do
  let env ← environmentNow
  let mint ← mintNow
  let halt ← Std.CloseableChannel.new none
  let reception ← IO.mkRef fun (client : Peer) (_ : Address.Socket) => client.shutdown
  let (files, fault, transport) ← do
    match CommandLine.parse words with
    | .error _ => pure (([] : List String), none, {})
    | .ok invocation =>
      let sources := Config.sources env
      let files := [sources.system, sources.user] ++ invocation.given.config.toList
      match Config.load sources invocation.flags (← Disk.copy files) with
      | .error _ => pure (files, none, {})
      | .ok config =>
        let files := files ++ pathsIn config env
        match invocation.command with
        | .ca => pure (files, none, {})
        | .run =>
          let (fault, transport) ← prepare config env (← IO.getRandomBytes 16).toList halt reception
          pure (files, fault, transport)
  let tree ← Disk.copy files
  let (outcome, w) := Program.start words env (fun _ => fault) ⟨tree, mint⟩
  Disk.write files tree w.tree
  match outcome with
  | .shown text => IO.print text
  | .misused _ => IO.eprintln "error: the words make no sense; try --help"
  | .failed why => IO.eprintln ("Error: " ++ why)
  | .serving server => serve server transport w halt reception
  discard halt.close.toBaseIO
  return outcome.code

end ForwardProxy

/-- The program. -/
def main (words : List String) : IO UInt32 := do
  match ← (ForwardProxy.run words).toBaseIO with
  | .ok code => return UInt32.ofNat code
  | .error e =>
    IO.eprintln ("Error: " ++ toString e)
    return 1
