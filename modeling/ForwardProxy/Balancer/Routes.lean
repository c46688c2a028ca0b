import ForwardProxy.Balancer.Rotation
import ForwardProxy.Balancer.Strategy
import ForwardProxy.Text.Split

/-!
# Routes

Hosts and their backends. A host is looked up exactly as written, and failing that without a port of
digits behind its last colon. Which backend of the list is chosen depends on the strategy; a host
without backends has no route under any strategy.
-/

namespace ForwardProxy

/-- Hosts and their lists of backends. -/
abbrev Balancer.Routes := List (String × List String)

/-- A strategy, routes, and a rotation for every route if backends are rotated. -/
structure Balancer where
  strategy : Balancer.Strategy
  routes : Balancer.Routes
  rotations : List (String × Balancer.Rotation) := []
  deriving DecidableEq, Repr

namespace Balancer

-- Whoever names the structure by its module finds it too.
export ForwardProxy (Balancer)

/-- A balancer with all rotations at their start. -/
def ofRoutes (strategy : Strategy) (routes : Routes) : Balancer where
  strategy
  routes
  rotations :=
    if strategy = .roundRobin then
      (routes.filter fun r => !r.2.isEmpty).map fun r => (r.1, { backends := r.2 })
    else []

/-- The backends of a host, if it has a route. -/
def backends? (b : Balancer) (host : String) : Option (List String) :=
  (b.routes.find? fun r => r.1 = host).map Prod.snd

/-- The rotation of a host. -/
def rotation? (b : Balancer) (host : String) : Option Rotation :=
  (b.rotations.find? fun r => r.1 = host).map Prod.snd

/-- The rotation of a host is replaced. -/
def setRotation (b : Balancer) (host : String) (r : Rotation) : Balancer :=
  { b with rotations := b.rotations.map fun p => if p.1 = host then (host, r) else p }

/-- The next backend of a rotation, behind a step of its producer. -/
def rotate (b : Balancer) (host : String) : Except Error String × Balancer :=
  match b.rotation? host with
  | none => (.error (.rotationStopped host), b)
  | some r =>
    match r.produce.take with
    | (some backend, r) => (.ok backend, b.setRotation host r)
    | (none, r) => (.error (.rotationStopped host), b.setRotation host r)

/-- The backend for a host. A random choice is made by `draw`. -/
def choose (b : Balancer) (draw : Nat) (host : String) : Except Error String × Balancer :=
  match b.backends? host with
  | none | some [] => (.error (.routeNotFound host), b)
  | some (first :: more) =>
    match b.strategy with
    | .first => (.ok first, b)
    | .random => (.ok ((first :: more)[draw % (more.length + 1)]?.getD first), b)
    | .roundRobin => b.rotate host
    | .fair => (.error (.unsupportedStrategy .fair), b)

/-- The host under which a route is looked up: as written if there is such a route, else without a
port of digits. -/
def routeKey (b : Balancer) (host : String) : String :=
  if (b.backends? host).isSome then host
  else
    match Text.splitLast ':' host.toList with
    | some (name, port) => if port.all Text.isDigit then String.ofList name else host
    | none => host

/-- The backend for a host as a request names it. -/
def chooseNamed (b : Balancer) (draw : Nat) (host : String) : Except Error String × Balancer :=
  b.choose draw (b.routeKey host)

end Balancer
end ForwardProxy
