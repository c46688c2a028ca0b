import ForwardProxy.Moderation.Queue
import ForwardProxy.Moderation.Log

/-!
# Moderation

The state that the operator's console and the requests share: the queue, the log, and the switch
that says whether requests are held at all. Turning it off releases everything that is held.
-/

namespace ForwardProxy.Moderation

/-- Queue, log and switch. -/
structure State where
  enabled : Bool
  queue : Queue := {}
  log : Log := {}
  deriving DecidableEq, Repr

namespace State

/-- The switch alone is set. -/
def setSwitch (s : State) (on : Bool) : State := { s with enabled := on }

/-- Everything held is released. The number counts it. -/
def flush (s : State) : Nat × State := ((s.queue.flush).1, { s with queue := (s.queue.flush).2 })

/-- The switch is set; turning it off releases everything held. -/
def setEnabled (s : State) (on : Bool) : State :=
  let s := s.setSwitch on
  if on then s else (s.flush).2

/-- A request is approved. -/
def approve (s : State) (id : Nat) : Except Error Unit × State :=
  ((s.queue.approve id).1, { s with queue := (s.queue.approve id).2 })

/-- A request is dropped. -/
def remove (s : State) (id : Nat) : Bool × State :=
  ((s.queue.remove id).1, { s with queue := (s.queue.remove id).2 })

end State
end ForwardProxy.Moderation
