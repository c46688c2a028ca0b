import ForwardProxy.Balancer.Dispatch
import ForwardProxy.Proofs.Address.Sockets
import ForwardProxy.Proofs.Balancer.Choosing
import ForwardProxy.Proofs.Http.RequestHeads

/-!
# What is changed of a balanced request

A request that is balanced goes on with another scheme and authority and with one more field behind all others; its
path and query, its method, version and body, and all of its fields, are those it came with. If there is no backend
for it, or one that is no authority, it does not go on at all: the handler answers without doing anything else.

* `redirect_eq_ok_iff`: a session is redirected just when the backend is the text of an authority, and how.
* `redirect_eq_error_iff`: otherwise it is refused for what is wrong with that text, in the words of the authority's
  own fault.
* `exists_redirected`: the frame, as the structure `Redirected`.
* `handler_eq`: handling a request is choosing and then `dispatched`, in any monad. What the choice does before it
  comes to a result is left open.
* `refused_of_error`, `refused_of_text`: when the session does not go on, `Refused` says that the answer is a plain one
  and that nothing else is done, again in any monad.
* `requests_are_redirected`: every result that a choice may have, at any point of a run, leads to one of these.

## Side conditions

`built` asks that the target has been read, as all targets off a connection have: then the same one is put together
from the texts of the authority, the path and the query, which is how the handler does it. A target without path and
query, that of a CONNECT, is redirected to the root.

A backend is checked only when it is chosen, not when the table is made. So a table with a malformed backend serves the
others, and each request that has this one picked for it is refused.
-/

namespace ForwardProxy.Balancer

/-! ## Redirecting -/

/-- The session as it goes on to a backend. -/
structure Redirected (s : Proxy.Session) (a : Authority) (s' : Proxy.Session) : Prop where
  uri : s'.request.uri = .absolute "http" a (s.request.uri.target?.getD .root)
  /-- The path and query are written as they came, or as a slash if there were none. -/
  rendered : s'.request.uri.render = "http://" ++ a.text ++ (s.request.uri.target?.map PathQuery.render).getD "/"
  /-- The same target is put together from the texts of the authority and of the path and query. -/
  built : s.request.uri.IsRead →
    Uri.ofTexts "http" a.text ((s.request.uri.target?.map PathQuery.render).getD "/") = .ok s'.request.uri
  method : s'.request.method = s.request.method
  version : s'.request.version = s.request.version
  body : s'.request.body = s.request.body
  fields : s'.request.headers.fields =
    s.request.headers.fields ++ [("x-forwarded-for", Bytes.ofString s.remote.render)]
  /-- The client's address is behind the values that the request came with; no other name has a new value. -/
  values : ∀ name, s'.request.headers.values name = s.request.headers.values name ++
    (if "x-forwarded-for" = name then [Bytes.ofString s.remote.render] else [])
  /-- The address can be sent as a value. -/
  sendable : Http.Headers.isValue (Bytes.ofString s.remote.render) = true
  response : s'.response = s.response
  remote : s'.remote = s.remote

variable {s s' : Proxy.Session} {backend : String}

theorem redirect_eq_ok_iff : redirect s backend = .ok s' ↔ ∃ a : Authority, a.text = backend ∧
    s' = { s with request := { s.request with
      uri := .absolute "http" a (s.request.uri.target?.getD .root)
      headers := s.request.headers.append "x-forwarded-for" (Bytes.ofString s.remote.render) } } := by
  unfold redirect backendUri
  simp only [← Authority.read_eq_ok_iff]
  cases Authority.read backend <;> simp [bind, Except.bind, pure, Except.pure, eq_comm]

/-- A session is not redirected just when something is wrong with the backend's text, and that is what is said. -/
theorem redirect_eq_error_iff {e : Proxy.Error} : redirect s backend = .error e ↔
    ∃ fault, Authority.fault? backend.toList = some fault ∧ e = .invalidRequest fault.message := by
  unfold redirect backendUri
  simp only [← Authority.read_eq_error_iff]
  cases Authority.read backend <;> simp [bind, Except.bind, pure, Except.pure, eq_comm]

theorem render_target (u : Uri) : (u.target?.map PathQuery.render).getD "/" = (u.target?.getD .root).render := by
  cases u.target? <;> rfl

/-- A session is redirected to every backend that is an authority. -/
theorem exists_redirected {a : Authority} (h : a.text = backend) :
    ∃ s', redirect s backend = .ok s' ∧ Redirected s a s' := by
  subst h
  refine ⟨_, redirect_eq_ok_iff.mpr ⟨a, rfl, rfl⟩, ?_⟩
  constructor
  case rendered =>
    rw [render_target]
    simp [Uri.render, String.append_assoc]
  case built =>
    intro read
    rw [render_target]
    exact Uri.ofTexts_of_read (by decide) a read.isProper.ofList?_render
  case values => exact fun name => Http.Headers.values_append _ _ _ name
  case sendable => exact Http.isValue_of_visible s.remote.visible_render
  all_goals rfl

/-! ## Handling -/

variable {m : Type → Type} [Monad m]

/-- What is done with a session once its choice has come to a result. -/
def dispatched (ctx : Proxy.Context m) (s : Proxy.Session) : Except Error String → m (Proxy.Reply ctx.Conn)
  | .error e => pure (.plain (Proxy.Error.route e).toResponse)
  | .ok backend =>
    match redirect s backend with
    | .error e => pure (.plain e.toResponse)
    | .ok s' => s'.answer ctx

/-- A request is handled by choosing a backend and then doing what is to be done with the result. -/
theorem handler_eq (ctx : Proxy.Context m) (choose : String → m (Except Error String)) (s : Proxy.Session) :
    handler ctx choose s = choose s.request.namedHost >>= dispatched ctx s := by
  rw [handler]
  refine congrArg (choose s.request.namedHost >>= ·) (funext fun result => ?_)
  cases result <;> rfl

/-- The client gets a response with this status, and nothing else is done. -/
def Refused (s : Proxy.Session) (result : Except Error String) (status : Http.Status) : Prop :=
  ∃ response : Http.Response, response.status = status ∧
    ∀ {m : Type → Type} [Monad m] (ctx : Proxy.Context m), dispatched ctx s result = pure (.plain response)

theorem refused_of_error (s : Proxy.Session) (e : Error) : Refused s (.error e) e.status :=
  ⟨(Proxy.Error.route e).toResponse, rfl, fun _ => rfl⟩

/-- A backend that is no authority gets nothing. -/
theorem refused_of_text (s : Proxy.Session) (h : ∀ a : Authority, a.text ≠ backend) :
    Refused s (.ok backend) 400 := by
  cases redirected : redirect s backend with
  | ok s' =>
    obtain ⟨a, text, -⟩ := redirect_eq_ok_iff.mp redirected
    exact absurd text (h a)
  | error e =>
    obtain ⟨fault, -, rfl⟩ := redirect_eq_error_iff.mp redirected
    exact ⟨(Proxy.Error.invalidRequest fault.message).toResponse, rfl, fun ctx => by rw [dispatched, redirected]⟩

namespace SharedBalancer

variable {strategy : Strategy} {routes : Routes} {h : List Handout} {shared : SharedBalancer}

/-- What is done with a session when the choice for the host `key` has come to a result. -/
structure Dispatched (strategy : Strategy) (routes : Routes) (s : Proxy.Session) (key : String)
    (result : Except Error String) : Prop where
  /-- A backend is chosen if there are some, unless the strategy is the reserved one. -/
  chosen : ∀ bs, strategy ≠ .fair → Serves routes key bs → ∃ b ∈ bs, result = .ok b
  /-- To a backend that is an authority the session goes on, redirected. -/
  sent : ∀ b a, result = .ok b → a.text = b → ∃ s', Redirected s a s' ∧
    ∀ {m : Type → Type} [Monad m] (ctx : Proxy.Context m), dispatched ctx s result = s'.answer ctx
  malformed : ∀ b, result = .ok b → (∀ a : Authority, a.text ≠ b) → Refused s result 400
  noRoute : (∀ bs, ¬ Serves routes key bs) → Refused s result 404
  unsupported : ∀ bs, strategy = .fair → Serves routes key bs → Refused s result 501

/-- A balanced request is redirected to the backend that is chosen for it, or refused. -/
theorem requests_are_redirected (r : system.Run (ofRoutes strategy routes) h shared) (s : Proxy.Session) {turn : Nat}
    {result : Except Error String} (gets : Gets h shared (shared.balancer.routeKey s.request.namedHost) turn result) :
    (∀ {m : Type → Type} [Monad m] (ctx : Proxy.Context m) (choose : String → m (Except Error String)),
      handler ctx choose s = choose s.request.namedHost >>= dispatched ctx s) ∧
    Dispatched strategy routes s (shared.balancer.routeKey s.request.namedHost) result := by
  refine ⟨fun ctx choose => handler_eq ctx choose s, ?_⟩
  have found := found_of_gets r gets
  constructor
  case chosen =>
    intro bs other served
    cases found with
    | backend served' picked =>
      obtain rfl := served.unique served'
      exact ⟨_, picked.mem, rfl⟩
    | unsupported fair => exact absurd fair other
    | noRoute unserved => exact absurd served (unserved bs)
  case sent =>
    rintro b a rfl text
    obtain ⟨s', redirected, frame⟩ := exists_redirected text
    exact ⟨s', frame, fun ctx => by rw [dispatched, redirected]⟩
  case malformed =>
    rintro b rfl other
    exact refused_of_text s other
  case noRoute =>
    intro unserved
    cases found with
    | backend served => exact absurd served (unserved _)
    | unsupported _ served => exact absurd served (unserved _)
    | noRoute => exact refused_of_error s _
  case unsupported =>
    rintro bs rfl served
    cases found with
    | backend _ picked => cases picked
    | unsupported => exact refused_of_error s _
    | noRoute unserved => exact absurd served (unserved bs)

/-- A request that names its route with a port goes on to the first backend. -/
theorem requests_are_redirected_port : ∃ (s s' : Proxy.Session) (a : Authority),
    s.request.namedHost = "app:80" ∧ a.text = "10.0.0.1:8080" ∧ Redirected s a s' ∧
      s'.request.headers.values "x-forwarded-for" = [Bytes.ofString "::1", Bytes.ofString "127.0.0.1:4000"] := by
  let shared := ofRoutes .first [("app", ["10.0.0.1:8080"])]
  let a : Authority := ⟨"10.0.0.1:8080", by decide⟩
  let s : Proxy.Session :=
    { request := {
        uri := .origin ⟨"/x", some "y"⟩
        headers := ⟨[("host", Bytes.ofString "app:80"), ("x-forwarded-for", Bytes.ofString "::1")]⟩ }
      remote := ⟨.v4 [127, 0, 0, 1], 4000⟩ }
  have host : s.request.namedHost = "app:80" := by decide
  have key : shared.balancer.routeKey s.request.namedHost = "app" := by
    rw [host]
    decide
  have gets : Gets [] shared (shared.balancer.routeKey s.request.namedHost) 0 (.ok "10.0.0.1:8080") := by
    rw [key]
    exact .alone 0
  obtain ⟨-, done⟩ := requests_are_redirected .start s gets
  obtain ⟨s', redirected, -⟩ := done.sent _ a rfl rfl
  refine ⟨s, s', a, host, rfl, redirected, ?_⟩
  rw [redirected.values]
  decide

end SharedBalancer
end ForwardProxy.Balancer
