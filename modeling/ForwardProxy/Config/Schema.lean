import ForwardProxy.Config.Layer
import ForwardProxy.Toml.Document

/-!
# Layers in TOML

A layer is written as four tables, in which every option has its key and its type. Keys that are not
known are passed over; a known one with a value of another type is an error. The options of a table
may also be given as an array, in their order.
-/

namespace ForwardProxy.Config

open Toml (Value Fields)

/-! ## Types of options -/

/-- A text. -/
def readText : Value → Option String
  | .text s => some s
  | _ => none

/-- A truth value. -/
def readSwitch : Value → Option Bool
  | .boolean b => some b
  | _ => none

/-- A whole number from 0 up to, but not including, a bound. -/
def readNumber (bound : Nat) : Value → Option Nat
  | .integer n => if 0 ≤ n && n < bound then some n.toNat else none
  | _ => none

/-- A list of texts. -/
def readTexts : Value → Option (List String)
  | .array items | .tables items => items.mapM readText
  | _ => none

/-- A value without content. -/
def isEmpty : Value → Bool
  | .array items | .tables items => items.isEmpty
  | .table _ fields => fields.isEmpty
  | _ => false

/-- A strategy: its name, or a table with its name as the only key and nothing under it. -/
def readStrategy : Value → Option Balancer.Strategy
  | .text s => Balancer.Strategy.ofName? s
  | .table _ [(name, v)] => if isEmpty v then Balancer.Strategy.ofName? name else none
  | _ => none

/-- Routes: a table of lists of texts. -/
def readRoutes : Value → Option Balancer.Routes
  | .table _ fields => fields.mapM fun f => (readTexts f.2).map fun backends => (f.1, backends)
  | _ => none

/-! ## Sections -/

/-- Finds an option by its key and by its place among the options of its section. -/
abbrev Finder := String → Nat → Option Value

/-- The options of a section: a table has them by key, an array by place. A moment and a section that
is missing have none. -/
def finder : Option Value → Option Finder
  | none | some (.moment _) => some fun _ _ => none
  | some (.table _ fields) => some fun key _ => Fields.get? fields key
  | some (.array items) | some (.tables items) => some fun _ place => items[place]?
  | some _ => none

/-- An option that may be left open. -/
def optional {α : Type} (read : Value → Option α) : Option Value → Option (Option α)
  | none => some none
  | some v => (read v).map some

/-- A list that is empty unless it is given. -/
def listed {α : Type} (read : Value → Option (List α)) : Option Value → Option (List α)
  | none => some []
  | some v => read v

/-- The options of the proxy itself. -/
def readProxy (find : Finder) : Option ProxyOptions := do
  some {
    host := ← optional readText (find "host" 0)
    port := ← optional (readNumber 0x10000) (find "port" 1)
    agent := ← optional readText (find "proxy_agent" 2)
    useEnvProxy := ← optional readSwitch (find "use_env_proxy" 3)
    loopTestUrl := ← optional readText (find "loop_test_url" 4)
    timeout := ← optional (readNumber 0x10000000000000000) (find "upstream_timeout_secs" 5)
    tlsCert := ← optional readText (find "tls_cert" 6)
    tlsKey := ← optional readText (find "tls_key" 7) }

/-- The options of interception. -/
def readInterceptor (find : Finder) : Option InterceptorOptions := do
  some {
    enabled := ← optional readSwitch (find "enabled" 0)
    caCert := ← optional readText (find "ca_cert" 1)
    caKey := ← optional readText (find "ca_key" 2)
    hostCertDir := ← optional readText (find "host_cert_dir" 3)
    preloadHosts := ← listed readTexts (find "preload_hosts" 4) }

/-- The options of moderation. -/
def readModeration (find : Finder) : Option ModerationOptions := do
  some ⟨← optional readSwitch (find "enabled" 0)⟩

/-- The options of the balancer. -/
def readBalancer (find : Finder) : Option BalancerOptions := do
  some ⟨← optional readStrategy (find "strategy" 0), ← listed readRoutes (find "routes" 1)⟩

/-! ## Whole layers -/

/-- The layer that the fields of a document describe. -/
def Layer.ofFields (fs : Fields) : Option Layer := do
  some {
    proxy := ← readProxy (← finder (fs.get? "proxy"))
    interceptor := ← readInterceptor (← finder (fs.get? "interceptor"))
    moderation := ← readModeration (← finder (fs.get? "moderation"))
    balancer := ← readBalancer (← finder (fs.get? "balancer")) }

/-- Reads a layer. -/
def Layer.read (text : String) : Option Layer := do Layer.ofFields (← Toml.read text)

/-- The sections of a layer with their options; those left open have no value. -/
def Layer.sections (l : Layer) : List (String × List (String × Option Value)) :=
  let text (o : Option String) := o.map Value.text
  let number (o : Option Nat) := o.map fun n => Value.integer n
  let switch (o : Option Bool) := o.map Value.boolean
  let texts (l : List String) := Value.array (l.map Value.text)
  [("proxy", [("host", text l.proxy.host), ("port", number l.proxy.port),
      ("proxy_agent", text l.proxy.agent), ("use_env_proxy", switch l.proxy.useEnvProxy),
      ("loop_test_url", text l.proxy.loopTestUrl), ("upstream_timeout_secs", number l.proxy.timeout),
      ("tls_cert", text l.proxy.tlsCert), ("tls_key", text l.proxy.tlsKey)]),
    ("interceptor", [("enabled", switch l.interceptor.enabled), ("ca_cert", text l.interceptor.caCert),
      ("ca_key", text l.interceptor.caKey), ("host_cert_dir", text l.interceptor.hostCertDir),
      ("preload_hosts", some (texts l.interceptor.preloadHosts))]),
    ("moderation", [("enabled", switch l.moderation.enabled)]),
    ("balancer", [("strategy", l.balancer.strategy.map fun s => .text s.name),
      ("routes", some (.table .header (l.balancer.routes.map fun r => (r.1, texts r.2))))])]

end ForwardProxy.Config
