import ForwardProxy.Balancer.Routes
import ForwardProxy.StepSystem

/-!
# The balancer among many requests

Requests choose backends at the same time. Every rotation has a producer, which fills its buffer as
long as the balancer is there, and a lock, which a choice has while it waits for a backend to come out
of the buffer. A choice may be given up wherever it pauses; the balancer goes when no choice is left,
and only then a producer finds that there is nobody to produce for. What each of them does without a
break is one move.
-/

namespace ForwardProxy.Balancer

/-! ## Choices -/

/-- Where a choice is. -/
inductive ChoiceProgress
  | asked
  /-- It waits for the lock of the rotation. -/
  | waiting
  /-- It has the lock and waits for a backend. -/
  | holding
  | done (result : Except Error String)
  /-- It has been given up. -/
  | abandoned
  deriving Repr

namespace ChoiceProgress

/-- The choice has the lock. -/
def isHolding : ChoiceProgress → Bool
  | holding => true
  | _ => false

/-- The choice is over. -/
def isOver : ChoiceProgress → Bool
  | done _ | abandoned => true
  | _ => false

end ChoiceProgress

/-- A choice of a backend for a host. -/
structure Choice where
  host : String
  progress : ChoiceProgress := .asked
  deriving Repr

/-- What a choice comes to without a pause: to the lock of a rotation, or to its result. A random pick
is made by `draw`. -/
def enter (b : Balancer) (draw : Nat) (host : String) : ChoiceProgress :=
  match b.backends? host with
  | none | some [] => .done (.error (.routeNotFound host))
  | some _ =>
    match b.strategy, b.rotation? host with
    | .roundRobin, some _ => .waiting
    | _, _ => .done (b.choose draw host).1

/-! ## All together -/

/-- The balancer, all choices there ever were, the hosts whose producers have stopped, and whether the
balancer is still there. -/
structure SharedBalancer where
  balancer : Balancer
  choices : List Choice := []
  stopped : List String := []
  isOpen : Bool := true
  deriving Repr

/-- A backend that a choice has got for its host. -/
structure Handout where
  choice : Nat
  host : String
  backend : String
  deriving DecidableEq, Repr

namespace SharedBalancer

/-- What happens without a break. -/
inductive Move
  | ask (host : String)
  /-- Choice `n` looks for its route. -/
  | enter (n draw : Nat)
  /-- Choice `n` gets the lock of its rotation. -/
  | acquire (n : Nat)
  /-- Choice `n`, which has the lock, gets a backend, or hears that there will be none. -/
  | receive (n : Nat)
  /-- Choice `n` is given up. -/
  | abandon (n : Nat)
  /-- The producer of a host puts the next backend into the buffer. -/
  | produce (host : String)
  /-- The balancer goes. -/
  | close
  /-- The producer of a host finds that nobody is there any more. -/
  | stop (host : String)
  deriving Repr

/-- Choice `n` goes on to another place. -/
def setChoice (s : SharedBalancer) (n : Nat) (c : Choice) (p : ChoiceProgress) : SharedBalancer :=
  { s with choices := s.choices.set n { c with progress := p } }

/-- A choice has the lock of the rotation of a host. -/
def isLocked (s : SharedBalancer) (host : String) : Bool :=
  s.choices.any fun c => c.host == host && c.progress.isHolding

/-- A choice looks for its route. -/
def enter (s : SharedBalancer) (n draw : Nat) : Option SharedBalancer := do
  let c ← s.choices[n]?
  match c.progress with
  | .asked => some (s.setChoice n c (s.balancer.enter draw c.host))
  | _ => none

/-- A choice gets the lock if it is free. -/
def acquire (s : SharedBalancer) (n : Nat) : Option SharedBalancer := do
  let c ← s.choices[n]?
  match c.progress with
  | .waiting => if s.isLocked c.host then none else some (s.setChoice n c .holding)
  | _ => none

/-- A choice that has the lock gets the oldest backend in the buffer. If there is none, it goes on
waiting, unless the producer has stopped. -/
def receive (s : SharedBalancer) (n : Nat) : Option SharedBalancer := do
  let c ← s.choices[n]?
  let r ← s.balancer.rotation? c.host
  match c.progress, r.take with
  | .holding, (some backend, rest) =>
    some { s.setChoice n c (.done (.ok backend)) with balancer := s.balancer.setRotation c.host rest }
  | .holding, (none, _) =>
    if s.stopped.contains c.host then
      some (s.setChoice n c (.done (.error (.rotationStopped c.host))))
    else none
  | _, _ => none

/-- A choice is given up. What has not been taken out of the buffer stays there. -/
def abandon (s : SharedBalancer) (n : Nat) : Option SharedBalancer := do
  let c ← s.choices[n]?
  if c.progress.isOver then none else some (s.setChoice n c .abandoned)

/-- A producer puts the next backend into the buffer, if there is room. -/
def produce (s : SharedBalancer) (host : String) : Option SharedBalancer := do
  let r ← s.balancer.rotation? host
  if s.isOpen && !s.stopped.contains host && r.buffer.length < bufferSize then
    some { s with balancer := s.balancer.setRotation host r.produce }
  else none

/-- The balancer behind a move, if the move is possible. -/
def move? (s : SharedBalancer) : Move → Option SharedBalancer
  | .ask host => if s.isOpen then some { s with choices := s.choices ++ [⟨host, .asked⟩] } else none
  | .enter n draw => s.enter n draw
  | .acquire n => s.acquire n
  | .receive n => s.receive n
  | .abandon n => s.abandon n
  | .produce host => s.produce host
  | .close => if s.choices.all fun c => c.progress.isOver then some { s with isOpen := false } else none
  | .stop host => if s.isOpen then none else some { s with stopped := host :: s.stopped }

/-- What is handed out in a move. -/
def shows (s : SharedBalancer) : Move → List Handout
  | .receive n =>
    (s.choices[n]?).elim [] fun c =>
      ((s.balancer.rotation? c.host).bind fun r => r.take.1).toList.map fun b => ⟨n, c.host, b⟩
  | .ask _ | .enter _ _ | .acquire _ | .abandon _ | .produce _ | .close | .stop _ => []

/-- The shared balancer as a step system. -/
def system : StepSystem SharedBalancer Move Handout := ⟨move?, shows⟩

/-- A balancer that nobody has asked yet. -/
def ofRoutes (strategy : Strategy) (routes : Routes) : SharedBalancer where
  balancer := Balancer.ofRoutes strategy routes

end SharedBalancer

/-! ## Counting -/

/-- What has been handed out for a host, in its order. -/
def served (h : List Handout) (host : String) : List String :=
  h.filterMap fun x => if x.host = host then some x.backend else none

/-- Turns without producers, buffers and locks: every host has a counter, which says how often it has
been served, and thereby which backend comes next. A move is a choice and its host. -/
def counters (routes : Routes) : StepSystem (String → Nat) (Nat × String) Handout where
  move? count m :=
    match (Balancer.ofRoutes .roundRobin routes).backends? m.2 with
    | none | some [] => none
    | some _ => some fun host => if host = m.2 then count m.2 + 1 else count host
  shows count m :=
    (((Balancer.ofRoutes .roundRobin routes).backends? m.2).bind fun bs =>
      Rotation.backendAt? bs (count m.2)).toList.map fun b => ⟨m.1, m.2, b⟩

end ForwardProxy.Balancer
