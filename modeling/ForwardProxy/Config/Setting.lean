import ForwardProxy.Config.Layer

/-!
# Settings

Most options of a layer have one value each. They are the settings; what a layer says of any of them
is read in one way, so that a rule for options can be stated once for all of them. Beside its settings a
layer has only hosts to be loaded in advance and routes.
-/

namespace ForwardProxy.Config

/-- An option with one value. -/
inductive Setting
  | host
  | port
  | agent
  | useEnvProxy
  | loopTestUrl
  | timeout
  | tlsCert
  | tlsKey
  | intercept
  | caCert
  | caKey
  | hostCertDir
  | moderate
  | strategy
  deriving DecidableEq, Repr

/-- The type of a setting's values. -/
def Setting.Value : Setting → Type
  | port | timeout => Nat
  | useEnvProxy | intercept | moderate => Bool
  | strategy => Balancer.Strategy
  | host | agent | loopTestUrl | tlsCert | tlsKey | caCert | caKey | hostCertDir => String

/-- The backends of a host. -/
def lookUp (routes : Balancer.Routes) (host : String) : Option (List String) :=
  (routes.find? fun r => r.1 = host).map Prod.snd

namespace Layer

/-- The value that a layer gives to a setting. -/
def setting? (l : Layer) : (s : Setting) → Option s.Value
  | .host => l.proxy.host
  | .port => l.proxy.port
  | .agent => l.proxy.agent
  | .useEnvProxy => l.proxy.useEnvProxy
  | .loopTestUrl => l.proxy.loopTestUrl
  | .timeout => l.proxy.timeout
  | .tlsCert => l.proxy.tlsCert
  | .tlsKey => l.proxy.tlsKey
  | .intercept => l.interceptor.enabled
  | .caCert => l.interceptor.caCert
  | .caKey => l.interceptor.caKey
  | .hostCertDir => l.interceptor.hostCertDir
  | .moderate => l.moderation.enabled
  | .strategy => l.balancer.strategy

/-- The hosts to be loaded in advance. -/
def preloaded (l : Layer) : List String := l.interceptor.preloadHosts

/-- The backends that a layer gives to a host. -/
def backends? (l : Layer) (host : String) : Option (List String) :=
  lookUp l.balancer.routes host

/-- No host has two routes. -/
def Proper (l : Layer) : Prop := (l.balancer.routes.map Prod.fst).Nodup

/-- Layers laid over one another, the first over a layer that says nothing. -/
def stack (ls : List Layer) : Layer := ls.foldl merge {}

end Layer
end ForwardProxy.Config
