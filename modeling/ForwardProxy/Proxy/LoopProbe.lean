import ForwardProxy.Proxy.Transport
import ForwardProxy.Text.Base64

/-!
# The loop probe

Before a parent proxy is used, the proxy listens for a moment on its own port and sends itself a
request through the parent proxy. The query of the request carries a random token; if a request
with the token arrives, the parent proxy leads back here.
-/

namespace ForwardProxy.Proxy.LoopProbe

/-- The name of the query parameter that carries the token. -/
def parameter : String := "waypostLoopProbe"

/-- How many random bytes a token is made of. -/
def tokenSize : Nat := 16

/-- The token of random bytes. -/
def token (random : Bytes) : String :=
  String.ofList (Text.Base64.encode Text.Base64.urlSafe false random)

/-- The test URL with one more query parameter, the token. -/
def url (testUrl token : String) : String :=
  testUrl ++ (if testUrl.toList.contains '?' then "&" else "?") ++ parameter ++ "=" ++ token

/-- The text occurs in the other. -/
def occursIn (text : List Char) : List Char → Bool
  | [] => text.isEmpty
  | c :: cs => text.isPrefixOf (c :: cs) || occursIn text cs

/-- The target carries the token in its query. -/
def isHit (token : String) (uri : Uri) : Bool :=
  match uri.query? with
  | some q => occursIn token.toList q.toList
  | none => false

/-- Listening on a port for a while: the failure to do so, or in the end the targets of the requests
that have arrived. -/
structure Listener (m : Type → Type) where
  bind : Nat → m (Except String Unit)
  stop : m (List Uri)

/-- Whether requests to the test URL come back to the port. What the parent proxy answers, or
whether it answers at all, does not matter. -/
def check {m : Type → Type} [Monad m] (net : Network m) (listener : Listener m) (t : Transport)
    (random : Bytes) (port : Nat) (testUrl : String) : m (Except Error Bool) := do
  match ← listener.bind port with
  | .error why => return .error (.loopCheckBind port why)
  | .ok _ =>
    let token := token random
    match Uri.parse? (url testUrl token) with
    | some uri =>
      let _ ← t.roundTrip net { uri }
    | none => pure ()
    return .ok ((← listener.stop).any (isHit token))

end ForwardProxy.Proxy.LoopProbe
