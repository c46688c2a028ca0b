import ForwardProxy.Program
import ForwardProxy.Proofs.Moderation.Screening

/-!
# Serving requests

The server that the program starts puts the gate in front of everything that goes upstream.

* Where a request goes (`Server.handle_atGate`, `Server.handle_intercepted`): directly or out of a tunnel, with
  routes or without, it reaches the handler behind the gate through the gate alone. Only a CONNECT request that is
  intercepted is answered without it, and then the answer is the same whatever backends, round trips and dialing
  are, so nothing of them is made use of.
* What the gate does about it (`Server.handle_eq`): first it lets the request pass, and what follows is told by how
  the request leaves, one case for each outcome.
* How it may leave (`Server.handle_serves`): that is known from a run of the gate, in which any number of requests
  and the operator act side by side (`Proofs.Moderation.Screening`). The two meet in `pass`: it comes back only with
  an outcome with which the run lets request `n` leave. Nothing else is asked of it. It may wait, look at the world
  and change it before it comes back, and it need not come back at all, as long as the request is held.

The history of the run has the grounds for every outcome, so that the handler behind the gate is called only for
a request that may go on, and a refusal is told only to one that has never been released. The monad has to be
a lawful one where something is said about what follows `pass`, and there only.
-/

namespace ForwardProxy.Program

open Moderation (History Store Gate visit)

variable {config : Config.Layer} {console : Bool} {env : String → Option String}
  {bind : HostPort → Option Files.Fault} {w w' : Certificate.Workshop} {server : Server}

/-- At the start, nothing is held and nothing is in the log; the configuration sets the switch. -/
theorem moderation_of_startServer
    (hs : startServer config console env bind w = (.serving server, w')) :
    server.moderation = { enabled := config.moderates } := by
  unfold startServer at hs
  repeat' split at hs
  all_goals cases hs
  all_goals rfl

namespace Server

variable {m : Type → Type} [Monad m] {ctx : Proxy.Context m}
  {chainFor : String → m (Except Interception.Error (List Bytes))}
  {choose : String → m (Except Balancer.Error String)} {pass : Proxy.Session → m Moderation.Outcome}
  {abandon : m (Proxy.Reply ctx.Conn)} {remote : Address.Socket} {service : Proxy.Service}
  {request : Http.Request} {s : Proxy.Session}

/-- A request that comes to the gate is answered as the gate says. -/
theorem handle_atGate (hs : server.atGate? remote service request = some s) :
    server.handle ctx chainFor choose pass abandon remote service request =
      Moderation.gated pass abandon (server.base ctx choose) s := by
  cases service with
  | inner target connect =>
    obtain rfl := Option.some.inj hs
    rfl
  | outer =>
    simp only [atGate?] at hs
    split at hs
    · simp at hs
    · rename_i hno
      obtain rfl := Option.some.inj hs
      cases hi : server.interceptor with
      | none => simp [handle, outer, hi]
      | some i =>
        have hc : request.isConnect = false := by simpa [hi] using hno
        simp [handle, outer, hi, Interception.handler, hc]

/-- How a request leaves the gate decides what is done for it, and nothing is done before. -/
theorem handle_eq (hs : server.atGate? remote service request = some s) :
    server.handle ctx chainFor choose pass abandon remote service request = (do
      match ← pass s with
      | .passed => server.base ctx choose s
      | .refused => pure (.plain (.ofText 403 Moderation.notApproved))
      | .unrecorded => pure (.plain (.ofText 503 Proxy.unavailableMessage))
      | .cancelled => abandon) := by
  rw [handle_atGate hs]
  unfold Moderation.gated
  refine congrArg _ (funext fun o => ?_)
  cases o with
  | passed | refused | unrecorded | cancelled => rfl

/-- If a request leaves the gate only as a history tells, then what is done for it has the grounds that the history
tells of. -/
theorem handle_serves [LawfulMonad m] {h : History} {n : Nat} (screened : h.Screened n s)
    (hs : server.atGate? remote service request = some s) (left : m {o // h.leavings n = [(s, o)]})
    (hp : pass s = Subtype.val <$> left) :
    ∃ served : m {reply // h.Serves n s (server.base ctx choose) abandon reply},
      server.handle ctx chainFor choose pass abandon remote service request =
        served >>= fun reply => reply.val := by
  refine ⟨(fun o => ⟨_, screened.serves o.property _ _⟩) <$> left, ?_⟩
  rw [handle_atGate hs, bind_map_left]
  unfold Moderation.gated
  rw [hp, bind_map_left]

/-- Taking over a CONNECT request needs neither round trips nor dialing. -/
theorem intercept_context (s : Proxy.Session)
    (roundTrip : Http.Request → m (Except Proxy.Error Http.Response))
    (dial : HostPort → m (Except String ctx.Conn)) :
    Interception.intercept { ctx with roundTrip, dial } chainFor s =
      Interception.intercept ctx chainFor s := by
  unfold Interception.intercept
  split
  · rfl
  · rfl
  · rfl

/-- What is done about a CONNECT request that is intercepted has nothing to do with the inner handler
either. -/
theorem handler_context {s : Proxy.Session} (hc : s.request.isConnect = true)
    (roundTrip : Http.Request → m (Except Proxy.Error Http.Response))
    (dial : HostPort → m (Except String ctx.Conn)) (inner inner' : Proxy.Handler m ctx.Conn) :
    Interception.handler { ctx with roundTrip, dial } chainFor inner s =
      Interception.handler ctx chainFor inner' s := by
  unfold Interception.handler
  rw [if_pos hc, if_pos hc, intercept_context]
  refine congrArg _ (funext fun result => ?_)
  cases result with
  | ok reply => rfl
  | error e => rfl

/-- The answer to a request that does not come to the gate has nothing to do with the gate, with backends, round
trips or dialing. -/
theorem handle_intercepted (hs : server.atGate? remote service request = none)
    (choose' : String → m (Except Balancer.Error String))
    (pass' : Proxy.Session → m Moderation.Outcome) (abandon' : m (Proxy.Reply ctx.Conn))
    (roundTrip : Http.Request → m (Except Proxy.Error Http.Response))
    (dial : HostPort → m (Except String ctx.Conn)) :
    server.handle { ctx with roundTrip, dial } chainFor choose' pass' abandon' remote service request =
      server.handle ctx chainFor choose pass abandon remote service request := by
  cases service with
  | inner target connect => simp [atGate?] at hs
  | outer =>
    obtain ⟨hi, hc⟩ : server.interceptor.isSome ∧ request.isConnect := by simpa [atGate?] using hs
    simp only [handle, outer, hi, if_true]
    exact handler_context hc roundTrip dial _ _

end Server

/-! ## Screening -/

/-- Whatever the configuration of a server, a request is handled behind the gate or, if it is a CONNECT
request that is intercepted, without anything upstream. Behind the gate, the outcome of its passing decides what is
done for it; and if that is how it leaves in a run of the gate, then the handler behind the gate is called once
at most, with the session as it has come, and only for a request that may go on, while the gate itself
answers only a request that has never been released, or one that could not be recorded. -/
theorem serving_is_screened
    (hs : startServer config console env bind w = (.serving server, w')) :
    (∀ {m : Type → Type} [Monad m] (ctx : Proxy.Context m)
      (chainFor : String → m (Except Interception.Error (List Bytes)))
      (choose : String → m (Except Balancer.Error String))
      (pass : Proxy.Session → m Moderation.Outcome) (abandon : m (Proxy.Reply ctx.Conn))
      (remote : Address.Socket) (service : Proxy.Service) (request : Http.Request),
      (∀ s, server.atGate? remote service request = some s →
        server.handle ctx chainFor choose pass abandon remote service request = (do
          match ← pass s with
          | .passed => server.base ctx choose s
          | .refused => pure (.plain (.ofText 403 Moderation.notApproved))
          | .unrecorded => pure (.plain (.ofText 503 Proxy.unavailableMessage))
          | .cancelled => abandon)) ∧
      (server.atGate? remote service request = none → ∀ choose' pass'
        (abandon' : m (Proxy.Reply ctx.Conn)) roundTrip dial,
        server.handle { ctx with roundTrip, dial } chainFor choose' pass' abandon' remote service request =
          server.handle ctx chainFor choose pass abandon remote service request)) ∧
    ∀ {stores : Store → Prop} {h : History} {g : Gate}, Gate.Run stores server.moderation h g →
      ∀ {n : Nat} {s : Proxy.Session}, .came n s ∈ h → h.Screened n s ∧
        ∀ {m : Type → Type} [Monad m] [LawfulMonad m] (ctx : Proxy.Context m)
          (chainFor : String → m (Except Interception.Error (List Bytes)))
          (choose : String → m (Except Balancer.Error String))
          (pass : Proxy.Session → m Moderation.Outcome) (abandon : m (Proxy.Reply ctx.Conn))
          (remote : Address.Socket) (service : Proxy.Service) (request : Http.Request),
          server.atGate? remote service request = some s →
          ∀ left : m {o // h.leavings n = [(s, o)]}, pass s = Subtype.val <$> left →
            ∃ served : m {reply // h.Serves n s (server.base ctx choose) abandon reply},
              server.handle ctx chainFor choose pass abandon remote service request =
                served >>= fun reply => reply.val := by
  refine ⟨fun ctx chainFor choose pass abandon remote service request => ⟨?_, ?_⟩, ?_⟩
  · exact fun s hs => Server.handle_eq hs
  · exact fun hs choose' pass' abandon' => Server.handle_intercepted hs choose' pass' abandon'
  · intro stores h g run n s came
    rw [moderation_of_startServer hs] at run
    have screened : h.Screened n s := (run.tracked rfl).screened came
    exact ⟨screened, fun ctx chainFor choose pass abandon remote service request hs left hp =>
      Server.handle_serves screened hs left hp⟩

/-- A visit that is held and approved. -/
def approvedVisit : History :=
  [.came 0 visit, .looked 0 true, .recorded 0 (some 1), .queued 0 1 0, .looked 0 true,
    .taken ⟨0, some 1⟩, .sent ⟨0, some 1⟩ true, .left 0 visit .passed]

/-- A world without time, in which nothing upstream can be reached. -/
def stillContext : Proxy.Context Id where
  Conn := Unit
  roundTrip _ := .error .timeout
  dial _ := .error "refused"
  agent := "waypost"

theorem serving_is_screened_approved :
    ∃ server w g, startServer { moderation := ⟨some true⟩ } false (fun _ => none) (fun _ => none)
        ⟨{}, ⟨⟨[], 0⟩, 0⟩⟩ = (.serving server, w) ∧
      Gate.Run (· = Moderation.Log.store) server.moderation approvedVisit g ∧
      approvedVisit.Screened 0 visit ∧
      ∃ reply : Id (Proxy.Reply Unit), server.handle stillContext (fun _ => .ok []) (fun _ => .ok "")
          (fun _ => Moderation.Outcome.passed) (.plain (.ofText 200 "")) visit.remote .outer visit.request = reply ∧
        approvedVisit.Serves 0 visit (Proxy.passthrough stillContext) (.plain (.ofText 200 "")) reply := by
  have moves : Gate.replay Moderation.Log.store { state := { enabled := true } }
      [.submit visit, .advance 0, .advance 0, .advance 0, .advance 0, .approve 1, .deliver 0,
        .advance 0, .advance 0, .advance 0] = some (approvedVisit, _) := rfl
  have run := Gate.Run.of_replay moves
  have served : startServer { moderation := ⟨some true⟩ } false (fun _ => none) (fun _ => none)
      ⟨{}, ⟨⟨[], 0⟩, 0⟩⟩ = (.serving _, _) := rfl
  have left : approvedVisit.leavings 0 = [(visit, .passed)] := rfl
  obtain ⟨screened, serves⟩ := (serving_is_screened served).2 run (n := 0) (s := visit) (by decide)
  obtain ⟨reply, handled⟩ := serves (m := Id) stillContext (fun _ => .ok []) (fun _ => .ok "") (fun _ => .passed)
    (.plain (.ofText 200 "")) visit.remote .outer visit.request rfl ⟨.passed, left⟩ rfl
  exact ⟨_, _, _, served, run, screened, reply.val, handled, reply.property⟩

end ForwardProxy.Program
