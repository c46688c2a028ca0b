import ForwardProxy.Balancer.Routes

/-!
# Layers of configuration

A layer sets some options and leaves others open. Layers are laid over one another: of every option
the last setting counts, hosts to be loaded in advance are gathered without repeats, and a route is
replaced as a whole.
-/

namespace ForwardProxy.Config

/-- Options of the proxy itself. -/
structure ProxyOptions where
  host : Option String := none
  port : Option Nat := none
  agent : Option String := none
  useEnvProxy : Option Bool := none
  loopTestUrl : Option String := none
  /-- In seconds. -/
  timeout : Option Nat := none
  tlsCert : Option String := none
  tlsKey : Option String := none
  deriving DecidableEq, Repr

/-- Options of interception. -/
structure InterceptorOptions where
  enabled : Option Bool := none
  caCert : Option String := none
  caKey : Option String := none
  hostCertDir : Option String := none
  preloadHosts : List String := []
  deriving DecidableEq, Repr

/-- Options of moderation. -/
structure ModerationOptions where
  enabled : Option Bool := none
  deriving DecidableEq, Repr

/-- Options of the balancer. -/
structure BalancerOptions where
  strategy : Option Balancer.Strategy := none
  routes : Balancer.Routes := []
  deriving DecidableEq, Repr

/-- A layer of configuration, or several laid over one another. -/
structure Layer where
  proxy : ProxyOptions := {}
  interceptor : InterceptorOptions := {}
  moderation : ModerationOptions := {}
  balancer : BalancerOptions := {}
  deriving DecidableEq, Repr

/-! ## Merging -/

/-- The later setting of an option counts, if there is one. -/
def later {α : Type} (old new : Option α) : Option α :=
  match new with
  | some v => some v
  | none => old

/-- A member is added unless it is there. -/
def addNew (old : List String) (host : String) : List String :=
  if old.contains host then old else old ++ [host]

/-- A route is replaced or added. -/
def setRoute (routes : Balancer.Routes) (route : String × List String) : Balancer.Routes :=
  match routes with
  | [] => [route]
  | r :: rest => if r.1 = route.1 then route :: rest else r :: setRoute rest route

namespace ProxyOptions

/-- Other options are laid over these. -/
def merge (a b : ProxyOptions) : ProxyOptions where
  host := later a.host b.host
  port := later a.port b.port
  agent := later a.agent b.agent
  useEnvProxy := later a.useEnvProxy b.useEnvProxy
  loopTestUrl := later a.loopTestUrl b.loopTestUrl
  timeout := later a.timeout b.timeout
  tlsCert := later a.tlsCert b.tlsCert
  tlsKey := later a.tlsKey b.tlsKey

end ProxyOptions

namespace InterceptorOptions

/-- Other options are laid over these. -/
def merge (a b : InterceptorOptions) : InterceptorOptions where
  enabled := later a.enabled b.enabled
  caCert := later a.caCert b.caCert
  caKey := later a.caKey b.caKey
  hostCertDir := later a.hostCertDir b.hostCertDir
  preloadHosts := b.preloadHosts.foldl addNew a.preloadHosts

end InterceptorOptions

namespace Layer

/-- Another layer is laid over this one. -/
def merge (a b : Layer) : Layer where
  proxy := a.proxy.merge b.proxy
  interceptor := a.interceptor.merge b.interceptor
  moderation := ⟨later a.moderation.enabled b.moderation.enabled⟩
  balancer :=
    ⟨later a.balancer.strategy b.balancer.strategy, b.balancer.routes.foldl setRoute a.balancer.routes⟩

end Layer
end ForwardProxy.Config
