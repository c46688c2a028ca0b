import ForwardProxy.Interception.Interceptor
import ForwardProxy.StepSystem

/-!
# Lives of an interceptor

Processes come and go over the same files. Each starts an interceptor and looks up key pairs of hosts as
long as it lives; what it has in memory is gone when it ends. In between, files may be taken away. Where
random bytes come from, and when something is made, is told by the move that needs it.
-/

namespace ForwardProxy.Interception

open Certificate (KeyPair Mint)

/-- The files of an interceptor, and the interceptor of the process that lives, if one does. -/
structure Site where
  places : Places
  tree : Files.Tree
  running : Option Interceptor := none
  deriving DecidableEq, Repr

/-- What may happen. -/
inductive SiteMove
  /-- A process begins. -/
  | start (mint : Mint)
  /-- The process looks up the key pair of a host. -/
  | ask (host : String) (mint : Mint)
  /-- The process ends. -/
  | stop
  /-- A file is taken away while no process lives. -/
  | remove (path : String)
  deriving DecidableEq, Repr

/-- What is seen of it. -/
inductive SiteEvent
  /-- A process has begun with this authority. -/
  | started (ca : KeyPair)
  /-- A process with this authority has got the key pair of a host. -/
  | served (ca : KeyPair) (host : String) (leaf : KeyPair)
  deriving DecidableEq, Repr

namespace Site

/-- A process begins; it lives on if its interceptor could be started. -/
def start (s : Site) (mint : Mint) : Except Error Interceptor × Site :=
  let (result, w) := Interceptor.start s.places ⟨s.tree, mint⟩
  (result, { s with tree := w.tree, running := result.toOption })

/-- The living process looks up the key pair of a host. -/
def ask (s : Site) (i : Interceptor) (host : String) (mint : Mint) : Except Error KeyPair × Site :=
  let (result, i, w) := i.leaf host ⟨s.tree, mint⟩
  (result, { s with tree := w.tree, running := some i })

/-- What a move makes of the site, if it is possible. -/
def move? (s : Site) : SiteMove → Option Site
  | .start mint =>
    match s.running with
    | none => some (s.start mint).2
    | some _ => none
  | .ask host mint => s.running.map fun i => (s.ask i host mint).2
  | .stop => some { s with running := none }
  | .remove path =>
    match s.running with
    | none => some { s with tree := (Files.Tree.remove path s.tree).2 }
    | some _ => none

/-- What is seen of a move. -/
def shows (s : Site) : SiteMove → List SiteEvent
  | .start mint =>
    match (s.start mint).1 with
    | .ok i => [.started i.ca]
    | .error _ => []
  | .ask host mint =>
    match s.running with
    | none => []
    | some i =>
      match (s.ask i host mint).1 with
      | .ok leaf => [.served i.ca host leaf]
      | .error _ => []
  | .stop | .remove _ => []

/-- The site as a step system. -/
def system : StepSystem Site SiteMove SiteEvent := ⟨move?, shows⟩

end Site
end ForwardProxy.Interception
