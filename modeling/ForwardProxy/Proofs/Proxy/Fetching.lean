import ForwardProxy.Proofs.Proxy.Exchanges
import ForwardProxy.Proxy.Contacts

/-!
# Responses are fetched once

However often the response of a session is asked for, round trips are made until the first of them is successful, and
none behind it: a session with a response does nothing more upstream (`IsSettled`). A failed attempt leaves behind a
session whose next attempt sends the same request without its body (`attempt_prepared`), which carries the induction
over the calls. For a tunnel nothing is asked of upstream until the session ends, and then its destination is dialed,
whether the answer that opens tunnels has been put in place before or not.

* `exists_isFetched`: any number of calls, by induction on the number. After a failure the rest is that of the
  session that is left, so what all the attempts come to (`Attempts`) grows in front, by `Attempts.cons`; after a
  success `Session.fetch_of_stored` says that nothing more is done.
* `isCompleted`: the end of such a session, with one more attempt if there is no response yet.
* `tunnelEnd_openTunnel`, `isTunnelled`: a request for a tunnel, one constructor for each way in which it may end.
* `responses_are_fetched_once`: the three kinds of sessions.

## Side conditions

The upstream is any that answers by what it has been contacted for before, in a list of contacts that each of the
contacts makes longer; so it may fail now and answer later, and what it does need not depend on the request. A
session whose response is there at the start is not excluded but has its own case, since handlers may put a response
in place. `promised` is about the client: it sees the status 200 for its tunnel only when the destination was dialed
with success, whatever was made up before.
-/

namespace ForwardProxy.Proxy

open Http (Response)

variable {Conn : Type} {u : Upstream Conn} {agent : String} {s : Session} {contacts : List (Contact Conn)}

/-! ## Sessions with a response -/

section

variable {m : Type → Type} [Monad m] {ctx : Context m} {response : Response}

theorem Session.getResponse_of_stored (stored : s.response = some response) :
    s.getResponse ctx = pure (.ok (), s) := by
  simp [getResponse, stored]

variable [LawfulMonad m]

theorem Session.fetch_of_stored (stored : s.response = some response) (n : Nat) :
    s.fetch ctx n = pure (List.replicate n (.ok ()), s) := by
  induction n with
  | zero => rfl
  | succ n ih => simp [fetch, getResponse_of_stored stored, ih, List.replicate_succ]

/-- The response is there to stay: it is fetched no more, and it is what the client gets. -/
structure IsSettled (ctx : Context m) (s : Session) (response : Response) : Prop where
  stored : s.response = some response
  kept : ∀ n, s.fetch ctx n = pure (List.replicate n (.ok ()), s)
  relayed : s.finish ctx = pure (.ok (.plain (relay response)))

theorem isSettled (plain : s.request.isConnect = false) (stored : s.response = some response) :
    IsSettled ctx s response where
  stored := stored
  kept := Session.fetch_of_stored stored
  relayed := finish_of_stored plain stored

/-- The session of a tunnel whose response has been asked for `n` times. -/
def Session.offered (s : Session) (agent : String) (n : Nat) : Session :=
  if n = 0 then s else { s with response := some (s.response.getD (.connectionEstablished agent)) }

/-- The response for a tunnel is made up. -/
theorem Session.fetch_of_connect (tunnel : s.request.isConnect = true) (n : Nat) :
    s.fetch ctx n = pure (List.replicate n (.ok ()), s.offered ctx.agent n) := by
  cases stored : s.response with
  | some response =>
    have same : s.offered ctx.agent n = s := by
      unfold offered
      split
      · rfl
      · rw [stored, Option.getD_some, ← stored]
    rw [fetch_of_stored stored, same]
  | none =>
    cases n with
    | zero => rfl
    | succ n =>
      have made : s.getResponse ctx = pure (.ok (), s.offered ctx.agent (n + 1)) := by
        simp [getResponse, offered, stored, tunnel]
      have settled : (s.offered ctx.agent (n + 1)).response = some (.connectionEstablished ctx.agent) := by
        simp [offered, stored]
      simp [fetch, made, fetch_of_stored settled, List.replicate_succ]

end

/-! ## Attempts -/

theorem Session.outbound_eq (s : Session) : s.outbound = s.attempt 0 := rfl

/-- Behind a failed attempt the same request goes out, without its body. -/
theorem Session.attempt_prepared (s : Session) (i : Nat) : s.prepared.attempt i = s.attempt (i + 1) := by
  simp [attempt, prepared, migrate_migrate]

theorem Session.prepared_prepared (s : Session) : s.prepared.prepared = s.prepared := by
  simp [prepared, migrate_migrate]

namespace Attempts

variable {a : Attempts}

/-- One more attempt in front of others. -/
def cons (e : Error) (a : Attempts) : Attempts := { a with failures := e :: a.failures }

theorem contacts_cons (e : Error) (a : Attempts) (s : Session) :
    (a.cons e).contacts s = (.sent (s.attempt 0) (.error e) :: a.contacts s.prepared : List (Contact Conn)) := by
  simp [contacts, results, cons, List.mapIdx_cons, Session.attempt_prepared]

theorem heard_cons (e : Error) (a : Attempts) (n : Nat) : (a.cons e).heard (n + 1) = .error e :: a.heard n := by
  simp [heard, cons]

/-- Without an attempt there is no response. -/
theorem unanswered_of_results (first : a.results = []) : a.response = none := by
  have parts := List.append_eq_nil_iff.mp first
  simpa using parts.2

theorem session_cons (fresh : s.response = none) (e : Error) (a : Attempts) :
    (a.cons e).session s = a.session s.prepared := by
  by_cases first : a.results = []
  · have tried : (a.cons e).results ≠ [] := by simp [results, cons]
    rw [session, if_neg tried, session, if_pos first]
    change { s.prepared with response := a.response } = s.prepared
    rw [unanswered_of_results first, ← fresh]
    rfl
  · have tried : (a.cons e).results ≠ [] := by simp [results, cons]
    rw [session, if_neg tried, session, if_neg first, Session.prepared_prepared]
    rfl

theorem request_session (a : Attempts) (s : Session) : (a.session s).request.isConnect = s.request.isConnect := by
  unfold session
  split <;> rfl

/-- What goes out next, as long as there is no response. -/
theorem outbound_session (unanswered : a.response = none) (s : Session) :
    (a.session s).outbound = s.attempt a.failures.length := by
  cases failures : a.failures with
  | nil => simp [session, results, failures, unanswered, Session.outbound_eq]
  | cons e es =>
    have tried : a.results ≠ [] := by simp [results, failures]
    simp [session, tried, Session.outbound_eq, Session.attempt, Session.prepared, migrate_migrate]

theorem response_session (fresh : s.response = none) (a : Attempts) : (a.session s).response = a.response := by
  by_cases first : a.results = []
  · rw [session, if_pos first, fresh, unanswered_of_results first]
  · rw [session, if_neg first]

end Attempts

/-- How `n` calls for the response of a session went, all in all, behind earlier contacts. -/
structure IsFetched (u : Upstream Conn) (agent : String) (s : Session) (n : Nat) (contacts : List (Contact Conn))
    (a : Attempts) : Prop where
  /-- There is an attempt for each failure, and one for the response. -/
  run : (s.fetch (u.context agent) n).run contacts = ((a.heard n, a.session s), contacts ++ a.contacts s)
  /-- As long as there is no response, every call makes an attempt. -/
  unanswered : a.response = none → a.failures.length = n
  answered : ∀ response, a.response = some response → a.failures.length < n

theorem run_fetch_succ (u : Upstream Conn) (agent : String) (s : Session) (n : Nat) (contacts : List (Contact Conn)) :
    (s.fetch (u.context agent) (n + 1)).run contacts =
      let first := (s.getResponse (u.context agent)).run contacts
      let rest := (first.1.2.fetch (u.context agent) n).run first.2
      ((first.1.1 :: rest.1.1, rest.1.2), rest.2) :=
  rfl

/-- Every call makes an attempt until one of them is successful. -/
theorem exists_isFetched (u : Upstream Conn) (agent : String) (plain : s.request.isConnect = false)
    (fresh : s.response = none) (n : Nat) (contacts : List (Contact Conn)) :
    ∃ a, IsFetched u agent s n contacts a := by
  induction n generalizing s contacts with
  | zero =>
    refine ⟨{}, ?_, fun _ => rfl, nofun⟩
    simp only [Attempts.contacts, Attempts.results, List.map_nil, Option.toList_none, List.append_nil, List.mapIdx_nil]
    rfl
  | succ n ih =>
    have asked : (s.getResponse (u.context agent)).run contacts =
        (s.after (u.answer contacts (s.attempt 0)),
          contacts ++ [.sent (s.attempt 0) (u.answer contacts (s.attempt 0))]) := by
      rw [getResponse_of_none plain fresh]
      rfl
    cases result : u.answer contacts (s.attempt 0) with
    | ok response =>
      rw [result] at asked
      have rest : (s.after (.ok response)).2.fetch (u.context agent) n =
          pure (List.replicate n (.ok ()), (s.after (.ok response)).2) := Session.fetch_of_stored rfl n
      refine ⟨⟨[], some response⟩, ?_, nofun, fun _ _ => Nat.succ_pos n⟩
      simp only [run_fetch_succ, asked, rest]
      rfl
    | error e =>
      rw [result] at asked
      obtain ⟨a, fetched⟩ := ih (s := s.prepared) plain fresh (contacts ++ [.sent (s.attempt 0) (.error e)])
      refine ⟨a.cons e, ?_, fun unanswered => congrArg (· + 1) (fetched.unanswered unanswered),
        fun response answered => Nat.succ_lt_succ (fetched.answered response answered)⟩
      rw [Attempts.heard_cons, Attempts.session_cons fresh, Attempts.contacts_cons]
      simp only [run_fetch_succ, asked, Session.after, fetched.run, List.append_assoc, List.singleton_append]

/-! ## The end of a session -/

/-- How a session ends whose response has been asked for. -/
structure IsCompleted (u : Upstream Conn) (agent : String) (s : Session) (contacts : List (Contact Conn))
    (a : Attempts) : Prop where
  settled : ∀ response, a.response = some response → IsSettled (u.context agent) (a.session s) response
  /-- If need be there is one more attempt, and nothing comes after it. -/
  last : a.response = none →
    let result := u.answer contacts (s.attempt a.failures.length)
    ((a.session s).finish (u.context agent)).run contacts =
      (replyTo result, contacts ++ [.sent (s.attempt a.failures.length) result])

theorem isCompleted (plain : s.request.isConnect = false) (fresh : s.response = none) (a : Attempts) :
    IsCompleted u agent s contacts a := by
  have still : (a.session s).request.isConnect = false := (a.request_session s).trans plain
  refine ⟨fun response answered => isSettled still ((a.response_session fresh).trans answered), fun unanswered => ?_⟩
  have missing : (a.session s).response = .none := (a.response_session fresh).trans unanswered
  rw [finish_of_none still missing, Attempts.outbound_session unanswered]
  rfl

/-- How a request for a tunnel ends, with the contacts behind it. -/
inductive TunnelEnd (u : Upstream Conn) (agent : String) (s : Session) (contacts : List (Contact Conn)) :
    Except Error (Reply Conn) × List (Contact Conn) → Prop
  | invalid {fault : TargetFault} (target : connectTarget s.request.uri = .error fault) :
    TunnelEnd u agent s contacts (.error (.ofTargetFault fault), contacts)
  | unreachable {target : HostPort} {why : String} (named : connectTarget s.request.uri = .ok target)
      (refused : u.accept contacts target = .error why) :
    TunnelEnd u agent s contacts
      (.error (.unreachable target.render why), contacts ++ [.dialed target (.error why)])
  | opened {target : HostPort} {conn : Conn} (named : connectTarget s.request.uri = .ok target)
      (accepted : u.accept contacts target = .ok conn) :
    TunnelEnd u agent s contacts
      (.ok ⟨.connectionEstablished agent, .relay conn⟩, contacts ++ [.dialed target (.ok conn)])

/-- The client's reply when the destination of its tunnel has been dialed. -/
def replyToDialed (agent : String) (target : HostPort) (result : Except String Conn) : Except Error (Reply Conn) :=
  match result with
  | .error why => .error (.unreachable target.render why)
  | .ok conn => .ok ⟨.connectionEstablished agent, .relay conn⟩

/-- The destination of a tunnel is dialed once. -/
theorem openTunnel_of_target {m : Type → Type} [Monad m] (ctx : Context m) {target : HostPort}
    (named : connectTarget s.request.uri = .ok target) :
    s.openTunnel ctx = ctx.dial target >>= fun result => pure (replyToDialed ctx.agent target result) := by
  simp only [Session.openTunnel, named]
  refine bind_congr fun result => ?_
  cases result <;> rfl

theorem tunnelEnd_openTunnel (u : Upstream Conn) (agent : String) (s : Session) (contacts : List (Contact Conn)) :
    TunnelEnd u agent s contacts ((s.openTunnel (u.context agent)).run contacts) := by
  cases named : connectTarget s.request.uri with
  | error fault =>
    simp only [Session.openTunnel, named]
    exact .invalid named
  | ok target =>
    have dialed : (s.openTunnel (u.context agent)).run contacts =
        (replyToDialed agent target (u.accept contacts target),
          contacts ++ [.dialed target (u.accept contacts target)]) := by
      rw [openTunnel_of_target _ named]
      rfl
    rw [dialed]
    cases accepted : u.accept contacts target with
    | error why => exact .unreachable named accepted
    | ok conn => exact .opened named accepted

/-- What the client sees of the end of its session. -/
def shown (ended : Except Error (Reply Conn)) : Reply Conn :=
  match ended with
  | .ok reply => reply
  | .error e => .plain e.toResponse

theorem answer_eq_shown {m : Type → Type} [Monad m] [LawfulMonad m] (ctx : Context m) (s : Session) :
    s.answer ctx = shown <$> s.finish ctx := by
  rw [map_eq_pure_bind]
  refine bind_congr fun ended => ?_
  cases ended <;> rfl

/-- A tunnel is promised to its client only when its destination has been dialed. -/
theorem TunnelEnd.promised {ended : Except Error (Reply Conn) × List (Contact Conn)}
    (tunnel : TunnelEnd u agent s contacts ended) (ok : (shown ended.1).response.status = 200) :
    ∃ target conn, connectTarget s.request.uri = .ok target ∧ ended.2 = contacts ++ [.dialed target (.ok conn)] := by
  cases tunnel with
  | invalid target =>
    have refused : (400 : Http.Status) = 200 := ok
    exact absurd refused (by decide)
  | unreachable named unreached =>
    have refused : (503 : Http.Status) = 200 := ok
    exact absurd refused (by decide)
  | opened named accepted => exact ⟨_, _, named, rfl⟩

/-- What becomes of a request for a tunnel. -/
structure IsTunnelled (u : Upstream Conn) (agent : String) (s : Session) (n : Nat) (contacts : List (Contact Conn)) :
    Prop where
  /-- To ask for the response makes it up, and asks nothing of upstream. -/
  offered : s.fetch (u.context agent) n = pure (List.replicate n (.ok ()), s.offered agent n)
  /-- What has been made up does not matter in the end. -/
  opened : ∀ response, { s with response }.finish (u.context agent) = s.openTunnel (u.context agent)
  ended : TunnelEnd u agent s contacts (((s.offered agent n).finish (u.context agent)).run contacts)
  promised : let answered := ((s.offered agent n).answer (u.context agent)).run contacts
    answered.1.response.status = 200 →
      ∃ target conn, connectTarget s.request.uri = .ok target ∧ answered.2 = contacts ++ [.dialed target (.ok conn)]

theorem isTunnelled (tunnel : s.request.isConnect = true) (n : Nat) : IsTunnelled u agent s n contacts := by
  have opened : ∀ response, { s with response }.finish (u.context agent) = s.openTunnel (u.context agent) := by
    intro response
    unfold Session.finish
    exact if_pos tunnel
  have finished : (s.offered agent n).finish (u.context agent) = s.openTunnel (u.context agent) := by
    unfold Session.offered
    split
    · exact opened s.response
    · exact opened _
  have ended : TunnelEnd u agent s contacts (((s.offered agent n).finish (u.context agent)).run contacts) := by
    rw [finished]
    exact tunnelEnd_openTunnel u agent s contacts
  refine ⟨Session.fetch_of_connect tunnel n, opened, ended, ?_⟩
  rw [answer_eq_shown]
  exact ended.promised

/-! ## Every session -/

/-- What a session does upstream when its response is asked for `n` times, and then it ends. -/
structure IsFetchedOnce (u : Upstream Conn) (agent : String) (s : Session) (n : Nat) (contacts : List (Contact Conn)) :
    Prop where
  missing : s.request.isConnect = false → s.response = none →
    ∃ a, IsFetched u agent s n contacts a ∧ IsCompleted u agent s (contacts ++ a.contacts s) a
  stored : s.request.isConnect = false → ∀ response, s.response = some response →
    IsSettled (u.context agent) s response
  tunnel : s.request.isConnect = true → IsTunnelled u agent s n contacts

/-- A response is fetched at most once. -/
theorem responses_are_fetched_once (u : Upstream Conn) (agent : String) (s : Session) (n : Nat)
    (contacts : List (Contact Conn)) : IsFetchedOnce u agent s n contacts where
  missing plain fresh :=
    have ⟨a, fetched⟩ := exists_isFetched u agent plain fresh n contacts
    ⟨a, fetched, isCompleted plain fresh a⟩
  stored plain _ := isSettled plain
  tunnel tunnel := isTunnelled tunnel n

/-- An upstream that answers only when it is asked again, and where nothing can be dialed. -/
def hesitantUpstream : Upstream Unit where
  answer contacts _ := if contacts.isEmpty then .error .timeout else .ok { status := 204 }
  accept _ _ := .error "refused"

/-- A client that sends content. -/
def uploadingSession : Session where
  request := { method := "PUT", uri := .origin .root, body := .full [1, 2, 3] }
  remote := ⟨.v4 [127, 0, 0, 1], 4000⟩

theorem responses_are_fetched_once_hesitant :
    IsFetchedOnce hesitantUpstream "" uploadingSession 3 [] ∧
      (uploadingSession.fetch (hesitantUpstream.context "") 3).run [] =
        (([.error .timeout, .ok (), .ok ()], { uploadingSession.prepared with response := some { status := 204 } }),
          [.sent uploadingSession.request (.error .timeout),
            .sent { uploadingSession.request with body := .empty } (.ok { status := 204 })]) := by
  refine ⟨responses_are_fetched_once _ _ _ _ _, ?_⟩
  rfl

end ForwardProxy.Proxy
