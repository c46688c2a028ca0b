import ForwardProxy.Proxy.Session

/-!
# Contacts with upstream

What a session does upstream, in the order in which it does it: it sends its request on a round trip, or it dials the
destination of a tunnel. Upstream may answer in any way, and its answer may depend on all that has been asked before.
-/

namespace ForwardProxy.Proxy

/-- Something that is asked of upstream, and how it went. -/
inductive Contact (Conn : Type)
  /-- A request goes out on a round trip. -/
  | sent (request : Http.Request) (result : Except Error Http.Response)
  /-- The destination of a tunnel is dialed. -/
  | dialed (target : HostPort) (result : Except String Conn)

/-- What lies upstream: its answers to a request and to being dialed, each behind the contacts that have been. -/
structure Upstream (Conn : Type) where
  answer : List (Contact Conn) → Http.Request → Except Error Http.Response
  accept : List (Contact Conn) → HostPort → Except String Conn

/-- The context of what lies upstream, in which every contact is written down. -/
def Upstream.context {Conn : Type} (u : Upstream Conn) (agent : String) :
    Context (StateM (List (Contact Conn))) where
  Conn
  roundTrip request := modifyGet fun contacts =>
    let result := u.answer contacts request
    (result, contacts ++ [.sent request result])
  dial target := modifyGet fun contacts =>
    let result := u.accept contacts target
    (result, contacts ++ [.dialed target result])
  agent

namespace Session

/-- The response is asked for several times, one after the other. -/
def fetch {m : Type → Type} [Monad m] (ctx : Context m) :
    Nat → Session → m (List (Except Error Unit) × Session)
  | 0, s => return ([], s)
  | n + 1, s => do
    let (result, s) ← s.getResponse ctx
    let (results, s) ← fetch ctx n s
    return (result :: results, s)

/-- What goes out with an attempt, the first of which has number zero: the same request every time, but its body only
once. -/
def attempt (s : Session) (i : Nat) : Http.Request :=
  { s.request with
    headers := migrate s.request.headers
    body := if i = 0 then s.request.body else .empty }

end Session

/-- How the attempts to get a response went: those that failed, and then the one that did not, if there was one. -/
structure Attempts where
  failures : List Error := []
  response : Option Http.Response := none

namespace Attempts

/-- The result of each attempt. -/
def results (a : Attempts) : List (Except Error Http.Response) :=
  a.failures.map .error ++ a.response.toList.map .ok

/-- The attempts as contacts. -/
def contacts {Conn : Type} (a : Attempts) (s : Session) : List (Contact Conn) :=
  a.results.mapIdx fun i result => .sent (s.attempt i) result

/-- What those who ask for the response hear when it is asked for `n` times. -/
def heard (a : Attempts) (n : Nat) : List (Except Error Unit) :=
  a.failures.map .error ++ List.replicate (n - a.failures.length) (.ok ())

/-- The session behind the attempts. -/
def session (a : Attempts) (s : Session) : Session :=
  if a.results = [] then s else { s.prepared with response := a.response }

end Attempts
end ForwardProxy.Proxy
