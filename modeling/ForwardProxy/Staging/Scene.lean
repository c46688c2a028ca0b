import ForwardProxy.Interception.Decrypted
import ForwardProxy.Staging.Chain
import ForwardProxy.Staging.Props
import ForwardProxy.Staging.Visit

/-!
# Scenes

What a rehearsal starts from: the addresses of all who take part, the way out of the proxy, and the
proxy itself with its handlers.
-/

namespace ForwardProxy.Staging

/-! ## Addresses -/

/-- An address of this host. -/
def local_ (port : Nat) : HostPort := ⟨"127.0.0.1", port⟩

/-- The address of the scripted server. -/
def scriptedAddress : HostPort := local_ 40001

/-- The address of the proxy. -/
def ownAddress : HostPort := local_ 40002

/-- The address of the server that sends back what it gets. -/
def echoAddress : HostPort := local_ 40003

/-- The address of the client. -/
def clientAddress : Address.Socket := ⟨.v4 [127, 0, 0, 1], 50505⟩

/-- The random bytes of the loop probe. -/
def probeBytes : Bytes := Bytes.ofString "0123456789abcdef"

/-- A text in which tokens of the loop probe are replaced by their lengths. -/
def hideTokens (t : String) : String :=
  match t.splitOn (Proxy.LoopProbe.parameter ++ "=") with
  | front :: rest =>
    front ++ String.join (rest.map fun r =>
      let isMark (c : Char) := (Text.Base64.value? Text.Base64.urlSafe c).isSome
      Proxy.LoopProbe.parameter ++ "=<token:" ++ toString (r.toList.takeWhile isMark).length ++ ">" ++
        String.ofList (r.toList.dropWhile isMark))
  | [] => t

/-! ## The way out -/

/-- A parent proxy at an address. -/
def proxyAt (a : HostPort) : Option Uri := Proxy.readProxy a.render

/-- The parent proxies that go by a name: the scripted server for both schemes or for one, the
proxy itself, or one that refuses connections. -/
def parentsFor : String → Option Proxy.Parents
  | "http" | "other" => some ⟨proxyAt scriptedAddress, none⟩
  | "https" => some ⟨none, proxyAt scriptedAddress⟩
  | "both" => some ⟨proxyAt scriptedAddress, proxyAt scriptedAddress⟩
  | "self" => some ⟨proxyAt ownAddress, none⟩
  | "refused" => some ⟨proxyAt (local_ 1), proxyAt (local_ 1)⟩
  | _ => none

/-- A world with a scripted server. -/
def worldWith (script : Script) : World := { script, listeners := [(scriptedAddress, .scripted)] }

/-- The loop probe with parent proxies. -/
def probeLoop (parents : Option Proxy.Parents) (url : String) : Play (Except Proxy.Error Bool) :=
  Proxy.LoopProbe.check World.network World.listener { parents, limit := some 500 } probeBytes
    ownAddress.port url

/-- The environment in which parent proxies are found: the scripted server, with a path that does
not count, or the proxy itself. -/
def environment : String → String → Option String
  | "self", "HTTP_PROXY" => some ("http://" ++ ownAddress.render)
  | "other", "http_proxy" | "off", "http_proxy" => some ("http://" ++ scriptedAddress.render ++ "/ignored")
  | _, _ => none

/-- The way out that the proxy finds in an environment, which it looks at unless that is "off". -/
def transportFrom (env : String) (run : Bool) (loopTestUrl : Option String) : Play Proxy.Transport :=
  let settings : Proxy.Settings :=
    { port := ownAddress.port, useEnvProxy := env != "off", loopTestUrl, timeout := some 400 }
  settings.transport World.network World.listener (environment env) probeBytes run

/-! ## The proxy -/

/-- The context of a way out. -/
def contextFor (t : Proxy.Transport) (agent : String) : Proxy.Context Play :=
  Proxy.Context.over World.network t agent

/-- A text as it stands between quotes. -/
def quote (t : String) : String :=
  let escape (c : Char) : List Char :=
    if c = '"' || c = '\\' then ['\\', c] else if c = '\t' then ['\\', 't'] else [c]
  String.ofList ('"' :: t.toList.flatMap escape ++ ['"'])

/-- Method and target of a request. -/
def lineOf (r : Http.Request) : String := r.method ++ " " ++ r.uri.render

/-- The handler that answers decrypted requests with what they are and what the CONNECT request in
front of them was. -/
def witness : InnerHandler := fun connect s =>
  let fields := (connect.headers.fields.mergeSort fun a b => decide (a.1 ≤ b.1)).map fun f =>
    "[" ++ quote f.1 ++ "," ++ quote (Bytes.latin1 f.2) ++ "]"
  pure (.plain (.ofText 200 (lineOf s.request ++ " | " ++ lineOf connect ++ " [" ++
    String.intercalate "," fields ++ "]")))

/-- The way from the client's connection to a proxy with a chain of handlers. Interception is by name:
none, "forward" or "witness". -/
def backFor (t : Proxy.Transport) (agent : String) (chain : Chain) (interception : String) :
    Proxy.Back Play Nat :=
  let ctx := contextFor t agent
  let handler : Proxy.Handler Play Nat := chain.handler ctx World.choose
  let outer : Proxy.Handler Play Nat :=
    if interception = "" then handler else Interception.handler ctx World.chainFor handler
  backTo clientAddress outer (if interception = "witness" then witness else fun _ => handler)

/-- The interceptor with leaves in the files of a workshop. -/
def interceptorOver (shop : Certificate.Workshop) : Interception.Interceptor × Certificate.Workshop :=
  (⟨pairAt authorityPaths shop.tree, leafDirectory, {}⟩, shop)

end ForwardProxy.Staging
