import ForwardProxy.Proxy.Session

/-!
# Exchanges

A request that does not ask for a tunnel is sent on, and the response to it comes back. On the way out only the fields
Proxy-Connection and Connection can change, on the way back only the fields that describe a body, and these only when
there is nothing new to be sent. What becomes of the fields is told name by name, by the values that each has
(`values_migrate`, `values_foldl_erase`).

* `forwarded_outbound`: the request that is sent, by `Forwarded`: the same in all but the two fields.
* `returned_relay`: the response that the client gets, by `Returned`.
* `getResponse_of_none`, `finish_of_none`, `finish_of_stored`: when a request is sent at all.
* `getResponse_finish`: asking for the response first makes no difference to what the client gets.
* `exchanges_are_preserved`: all of it.

Names may be repeated in a message, so a field is not looked up but gathered: `values` has all values of a name in
their order, and two messages that agree on them agree on everything a recipient may tell. `migrate` and `relay` done
twice are the same as done once (`again`), which is what a chain of such proxies needs.

The monad is any in which requests can be sent; where two programs are compared it has to be a lawful one. A request
for a tunnel is excluded by `plain` and has its own module.
-/

namespace ForwardProxy

/-! ## Erased fields -/

namespace Http.Headers

theorem first?_eq_none_iff {h : Headers} {name : String} : h.first? name = none ↔ h.values name = [] := by
  simp [first?]

/-- To erase several names is to keep the fields with other names. -/
theorem foldl_erase (names : List String) (h : Headers) :
    names.foldl erase h = ⟨h.fields.filter fun f => f.1 ∉ names⟩ := by
  induction names generalizing h with
  | nil => rw [List.foldl_nil, List.filter_eq_self.mpr (by simp)]
  | cons name names ih => simp [ih, erase, List.filter_filter, Bool.and_comm]

theorem foldl_erase_foldl_erase (names : List String) (h : Headers) :
    names.foldl erase (names.foldl erase h) = names.foldl erase h := by
  simp [foldl_erase, List.filter_filter]

theorem values_foldl_erase (names : List String) (h : Headers) (name : String) :
    (names.foldl erase h).values name = if name ∈ names then [] else h.values name := by
  induction names generalizing h with
  | nil => simp
  | cons first names ih =>
    rw [List.foldl_cons, ih, values_erase]
    by_cases here : name = first <;> by_cases later : name ∈ names <;> simp [here, later]

end Http.Headers

namespace Proxy

open Http (Headers)

variable {h : Headers} {value : Bytes} {rest : List Bytes}

/-! ## On the way out -/

theorem migrate_of_absent (absent : h.values "proxy-connection" = []) : migrate h = h := by
  simp [migrate, Headers.first?, absent]

theorem migrate_of_present (present : h.values "proxy-connection" = value :: rest) :
    migrate h = if h.values "connection" = [] then (h.erase "proxy-connection").append "connection" value
      else h.erase "proxy-connection" := by
  have contains : (h.erase "proxy-connection").contains "connection" = true ↔ h.values "connection" ≠ [] := by
    simp [Headers.contains_iff]
  by_cases connection : h.values "connection" = [] <;>
    simp [migrate, Headers.first?, present, contains, connection]

/-- What becomes of the values of every name. -/
theorem values_migrate (h : Headers) (name : String) :
    (migrate h).values name =
      if name = "proxy-connection" then []
      else if name = "connection" ∧ h.values "connection" = [] then (h.first? "proxy-connection").toList
      else h.values name := by
  cases present : h.values "proxy-connection" with
  | nil =>
    rw [migrate_of_absent present, Headers.first?_eq_none_iff.mpr present]
    split
    · rename_i same
      rw [same, present]
    · split
      · rename_i same
        rw [same.1, same.2, Option.toList_none]
      · rfl
  | cons value rest =>
    have first : h.first? "proxy-connection" = some value := by simp [Headers.first?, present]
    rw [migrate_of_present present, first]
    by_cases absent : h.values "connection" = []
    · simp only [absent, if_true, and_true, Headers.values_append, Headers.values_erase, Option.toList_some]
      by_cases legacy : name = "proxy-connection"
      · simp [legacy]
      · by_cases here : name = "connection"
        · simp [here, absent]
        · simp [legacy, here, Ne.symm here]
    · simp [absent]

theorem migrate_migrate (h : Headers) : migrate (migrate h) = migrate h :=
  migrate_of_absent (by simp [values_migrate])

/-- What is sent in place of a request. -/
structure Forwarded (r sent : Http.Request) : Prop where
  method : sent.method = r.method
  uri : sent.uri = r.uri
  version : sent.version = r.version
  body : sent.body = r.body
  legacy : sent.headers.values "proxy-connection" = []
  /-- The older field stands in for the newer one, with its first value. -/
  migrated : ∀ value rest, r.headers.values "connection" = [] → r.headers.values "proxy-connection" = value :: rest →
    sent.headers.values "connection" = [value]
  kept : ∀ name, name ≠ "proxy-connection" →
    (name = "connection" → r.headers.values "connection" = [] → r.headers.values "proxy-connection" = []) →
    sent.headers.values name = r.headers.values name
  again : migrate sent.headers = sent.headers

theorem forwarded_outbound (s : Session) : Forwarded s.request s.outbound where
  method := rfl
  uri := rfl
  version := rfl
  body := rfl
  legacy := by simp [Session.outbound, values_migrate]
  migrated value rest absent present := by
    simp [Session.outbound, values_migrate, absent, Headers.first?, present]
  kept name other stays := by
    rw [Session.outbound, values_migrate, if_neg other]
    split
    · rename_i connection
      rw [connection.1, connection.2, Headers.first?_eq_none_iff.mpr (stays connection.1 connection.2),
        Option.toList_none]
    · rfl
  again := migrate_migrate s.request.headers

/-! ## On the way back -/

theorem relay_relay (r : Http.Response) : relay (relay r) = relay r := by
  by_cases unmodified : r.status = 304 <;> simp [relay, unmodified, Headers.foldl_erase_foldl_erase]

/-- What is returned in place of a response. -/
structure Returned (r returned : Http.Response) : Prop where
  status : returned.status = r.status
  reason : returned.reason = r.reason
  version : returned.version = r.version
  body : returned.body = r.body
  headers : r.status ≠ 304 → returned.headers = r.headers
  /-- A response without news says nothing about a body. -/
  unmodified : r.status = 304 → ∀ name, returned.headers.values name =
    if name ∈ ["content-type", "content-length", "transfer-encoding"] then [] else r.headers.values name
  again : relay returned = returned

theorem returned_relay (r : Http.Response) : Returned r (relay r) := by
  have headers : r.status ≠ 304 → (relay r).headers = r.headers := fun other => by rw [relay, if_neg other]
  have unmodified : r.status = 304 → (relay r).headers = bodyFields.foldl Headers.erase r.headers :=
    fun same => by rw [relay, if_pos same]
  refine ⟨?_, ?_, ?_, ?_, headers, ?_, relay_relay r⟩
  case refine_5 =>
    intro same name
    rw [unmodified same, Headers.values_foldl_erase]
    rfl
  all_goals
    unfold relay
    split <;> rfl

/-! ## There and back -/

/-- The client's reply when a round trip has come to its end. -/
def replyTo {Conn : Type} (result : Except Error Http.Response) : Except Error (Reply Conn) :=
  result.map fun response => .plain (relay response)

/-- The session behind a round trip. -/
def Session.after (s : Session) (result : Except Error Http.Response) : Except Error Unit × Session :=
  match result with
  | .ok response => (.ok (), { s.prepared with response := some response })
  | .error e => (.error e, s.prepared)

variable {m : Type → Type} [Monad m] {ctx : Context m} {s : Session}

/-- A response that is not there is fetched by sending the request once. -/
theorem getResponse_of_none (plain : s.request.isConnect = false) (fresh : s.response = none) :
    s.getResponse ctx = ctx.roundTrip s.outbound >>= fun result => pure (s.after result) := by
  simp only [Session.getResponse, plain, fresh]
  refine bind_congr fun result => ?_
  cases result <;> rfl

variable [LawfulMonad m]

/-- A response that is there is what the client gets. -/
theorem finish_of_stored {response : Http.Response} (plain : s.request.isConnect = false)
    (stored : s.response = some response) : s.finish ctx = pure (.ok (.plain (relay response))) := by
  simp [Session.finish, plain, Session.getResponse, stored]

theorem finish_of_none (plain : s.request.isConnect = false) (fresh : s.response = none) :
    s.finish ctx = ctx.roundTrip s.outbound >>= fun result => pure (replyTo result) := by
  unfold Session.finish
  rw [if_neg (by simp [plain]), getResponse_of_none plain fresh, bind_assoc]
  refine bind_congr fun result => ?_
  cases result <;> simp [Session.after, replyTo, Except.map]

/-- Whoever fetches the response first gets the same reply in the end. -/
theorem getResponse_finish (plain : s.request.isConnect = false) :
    (do
      let (result, s) ← s.getResponse ctx
      match result with
      | .error e => return .error e
      | .ok () => s.finish ctx) = s.finish ctx := by
  cases response : s.response with
  | some response => simp [Session.getResponse, response]
  | none =>
    rw [getResponse_of_none plain response, finish_of_none plain response, bind_assoc]
    refine bind_congr fun result => ?_
    cases result with
    | error e => simp [Session.after, replyTo, Except.map]
    | ok response =>
      have stored : (s.after (.ok response)).2.finish ctx = pure (.ok (.plain (relay response))) :=
        finish_of_stored plain rfl
      simpa [Session.after, replyTo, Except.map] using stored

/-- What those at the two ends of an exchange may rely on. -/
structure Preserved (ctx : Context m) (s : Session) : Prop where
  forwarded : Forwarded s.request s.outbound
  /-- Nothing else is sent, and it is sent once. -/
  sent : s.response = none → s.finish ctx = ctx.roundTrip s.outbound >>= fun result => pure (replyTo result)
  stored : ∀ response, s.response = some response → s.finish ctx = pure (.ok (.plain (relay response)))
  early : (do
    let (result, s) ← s.getResponse ctx
    match result with
    | .error e => return .error e
    | .ok () => s.finish ctx) = s.finish ctx
  returned : ∀ response, Returned response (relay response)

/-- Every exchange is preserved for which no tunnel is opened. -/
theorem exchanges_are_preserved (ctx : Context m) (s : Session) (plain : s.request.isConnect = false) :
    Preserved ctx s where
  forwarded := forwarded_outbound s
  sent := finish_of_none plain
  stored _ := finish_of_stored plain
  early := getResponse_finish plain
  returned := returned_relay

/-- A client in the older way, which names the fields that it repeats in turn. -/
def legacySession : Session where
  request := {
    uri := .origin .root
    headers := ⟨[("accept", [1]), ("proxy-connection", [2]), ("accept", [3]), ("proxy-connection", [4])]⟩ }
  remote := ⟨.v4 [127, 0, 0, 1], 4000⟩

/-- An origin that has nothing new, and says so with the length of what it does not send. -/
def unmodifiedOrigin : Context Id where
  Conn := Unit
  roundTrip _ := .ok { status := 304, headers := ⟨[("etag", [5]), ("content-length", [6]), ("etag", [7])]⟩ }
  dial _ := .error "refused"
  agent := ""

theorem exchanges_are_preserved_unmodified :
    legacySession.request.isConnect = false ∧ Preserved unmodifiedOrigin legacySession ∧
      legacySession.outbound.headers.values "connection" = [[2]] ∧
      legacySession.outbound.headers.values "accept" = [[1], [3]] ∧
      legacySession.finish unmodifiedOrigin =
        .ok (.plain { status := 304, headers := ⟨[("etag", [5]), ("etag", [7])]⟩ }) := by
  have plain : legacySession.request.isConnect = false := by decide
  have preserved := exchanges_are_preserved unmodifiedOrigin legacySession plain
  refine ⟨plain, preserved, preserved.forwarded.migrated [2] [[4]] (by decide) (by decide), ?_, ?_⟩
  · exact (preserved.forwarded.kept "accept" (by decide) (by decide)).trans (by decide)
  · exact (preserved.sent rfl).trans rfl

end Proxy
end ForwardProxy
