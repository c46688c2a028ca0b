import ForwardProxy.Moderation.Gate
import ForwardProxy.Staging.World

/-!
# Chains of handlers

The ways in which requests can be handled in a rehearsal, as values.
-/

namespace ForwardProxy.Staging

/-- How requests are handled. -/
inductive Chain
  /-- Every request goes to its own target. -/
  | passthrough
  /-- Every request is answered with what it is. -/
  | echo
  /-- The balancer of the world picks a backend. -/
  | balancer
  /-- Moderation without an operator: what is held is never approved. -/
  | gate (enabled : Bool) (inner : Chain)
  deriving Repr

namespace Chain

/-- What a request is, in words. -/
def echoText (s : Proxy.Session) : String :=
  s.request.method ++ " " ++ s.request.uri.render ++ " from " ++ s.remote.ip.render

/-- The handler of a chain over a network. -/
def handler (ctx : Proxy.Context Play) (choose : String → Play (Except Balancer.Error String)) :
    Chain → Proxy.Handler Play ctx.Conn
  | passthrough => Proxy.passthrough ctx
  | echo => fun s => pure (.plain (.ofText 200 (echoText s)))
  | balancer => Balancer.handler ctx choose
  | gate true _ => fun _ => pure (.plain (.ofText 403 Moderation.notApproved))
  | gate false inner => handler ctx choose inner

end Chain
end ForwardProxy.Staging
