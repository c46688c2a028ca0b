import ForwardProxy.Http.Headers
import ForwardProxy.Http.Status
import ForwardProxy.Uri

/-!
# Requests and responses

The two kinds of message that pass through the proxy, and the responses that the proxy makes up
itself: plain texts, and the answer that opens a tunnel.
-/

namespace ForwardProxy.Http

/-- The two protocol versions in use. -/
inductive Version
  | http10
  | http11
  deriving DecidableEq, Repr, Inhabited

/-- The version as written. -/
def Version.render : Version → String
  | http10 => "HTTP/1.0"
  | http11 => "HTTP/1.1"

/-- How the receiver of a body knows where it ends. -/
inductive Framing
  /-- There is no body. -/
  | absent
  /-- The length is known beforehand. -/
  | sized
  /-- The body comes in chunks. -/
  | chunked
  /-- The body ends where the connection does. -/
  | untilClose
  deriving DecidableEq, Repr, Inhabited

/-- The content of a message. `complete` is false when it could not be read to its end. -/
structure Body where
  data : Bytes
  framing : Framing
  complete : Bool := true
  deriving DecidableEq, Repr, Inhabited

namespace Body

/-- No content. -/
def empty : Body := ⟨[], .absent, true⟩

/-- Content of known length. -/
def full (data : Bytes) : Body := ⟨data, if data.isEmpty then .absent else .sized, true⟩

/-- A text as content. -/
def text (s : String) : Body := full (Bytes.ofString s)

end Body

/-- A request. -/
structure Request where
  method : String := "GET"
  uri : Uri
  version : Version := .http11
  headers : Headers := {}
  body : Body := .empty
  deriving DecidableEq, Repr

/-- A response. `reason` is its reason phrase where that is not the registered one. -/
structure Response where
  status : Status
  reason : Option String := none
  version : Version := .http11
  headers : Headers := {}
  body : Body := .empty
  deriving DecidableEq, Repr

/-- The method that asks for a tunnel. -/
def connectMethod : String := "CONNECT"

/-- The request asks for a tunnel. -/
def Request.isConnect (r : Request) : Bool := r.method == connectMethod

/-- The host that a request names: its first Host field where that is visible ASCII text, else the
host of its target, else nothing. -/
def Request.namedHost (r : Request) : String :=
  match (r.headers.first? "host").bind Headers.text? with
  | some host => host
  | none => r.uri.host?.getD ""

namespace Response

/-- A plain text with a status. -/
def ofText (status : Status) (message : String) : Response where
  status
  headers := ⟨[("content-type", Bytes.ofString "text/plain; charset=utf-8")]⟩
  body := .text message

/-- The answer that opens a tunnel. It names the proxy, unless the name cannot be sent. -/
def connectionEstablished (agent : String) : Response where
  status := 200
  reason := some "Connection established"
  headers :=
    let value := Bytes.ofString agent
    if Headers.isValue value then ⟨[("proxy-agent", value)]⟩ else {}

end Response
end ForwardProxy.Http
