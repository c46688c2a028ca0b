import ForwardProxy.Http.Status
import ForwardProxy.Text.Ascii

/-!
# Load balancing strategies

How a backend is picked from a route's list, the names under which configuration files and
operators choose a strategy, and what can go wrong with a choice.
-/

namespace ForwardProxy.Balancer

/-- A way to pick a backend. -/
inductive Strategy
  /-- Always the first of the list. -/
  | first
  /-- Any of the list. -/
  | random
  /-- One after the other, starting over at the end. -/
  | roundRobin
  /-- Reserved; no backend is ever picked. -/
  | fair
  deriving DecidableEq, Repr, Inhabited

namespace Strategy

/-- The name of the strategy. -/
def name : Strategy → String
  | first => "first"
  | random => "random"
  | roundRobin => "round-robin"
  | fair => "fair"

/-- The strategy of that very name. Configuration files are read this way. -/
def ofName? : String → Option Strategy
  | "first" => some first
  | "random" => some random
  | "round-robin" => some roundRobin
  | "fair" => some fair
  | _ => none

/-- Every strategy is found under its name. -/
theorem ofName?_name (s : Strategy) : ofName? s.name = some s := by cases s <;> rfl

/-- Reads a name in any case, round-robin also in one word or with an underscore. The error is the
text in words. -/
def parse (text : String) : Except String Strategy :=
  match Text.lower text with
  | "first" => .ok first
  | "random" => .ok random
  | "round-robin" | "roundrobin" | "round_robin" => .ok roundRobin
  | "fair" => .ok fair
  | other => .error ("unknown load balancing strategy '" ++ other ++ "'")

end Strategy

/-- Why no backend was picked. -/
inductive Error
  | routeNotFound (host : String)
  | unsupportedStrategy (strategy : Strategy)
  | rotationStopped (host : String)
  deriving DecidableEq, Repr

namespace Error

/-- The failure in words. -/
def message : Error → String
  | routeNotFound host => "No route configured for host '" ++ host ++ "'"
  | unsupportedStrategy s => "Load balancing strategy '" ++ s.name ++ "' is not implemented"
  | rotationStopped host => "Round-robin rotation for '" ++ host ++ "' has stopped"

/-- The status with which a client hears of the failure. -/
def status : Error → Http.Status
  | routeNotFound _ => 404
  | unsupportedStrategy _ => 501
  | rotationStopped _ => 503

end Error
end ForwardProxy.Balancer
