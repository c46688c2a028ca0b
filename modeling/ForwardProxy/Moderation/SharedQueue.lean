import ForwardProxy.Moderation.Gate
import ForwardProxy.StepSystem

/-!
# Histories of the queue

The queue by itself, with any callers. Ids may come twice and waiters may go away at any time, also
between the two parts of an approval or a flush, which first take signals out and then send them one
after the other. A history tells what has become of each signal.
-/

namespace ForwardProxy.Moderation

/-! ## Calls -/

namespace Queue

/-- What is done with a queue. -/
inductive Call
  | add (id : Nat)
  | remove (id : Nat)
  | approve (id : Nat)
  | flush
  /-- Waiter `w` goes away. -/
  | leave (w : Nat)
  deriving DecidableEq, Repr

/-- The queue after a call that nothing interrupts. -/
def after (q : Queue) : Call → Queue
  | .add id => (q.add id).2
  | .remove id => (q.remove id).2
  | .approve id => (q.approve id).2
  | .flush => q.flush.2
  | .leave w => q.leave w

/-- The signal that is pending under an id, if there is one. -/
def signals (q : Queue) (id : Nat) : List Signal :=
  (q.find? id).toList.map fun w => ⟨w, some id⟩

/-- All pending signals. -/
def allSignals (q : Queue) : List Signal := q.pending.map fun p => ⟨p.2, none⟩

end Queue

/-! ## Moves -/

/-- A queue, and the signals that calls have taken out of it and not sent yet. -/
structure SharedQueue where
  queue : Queue := {}
  underway : List Signal := []
  deriving DecidableEq, Repr

namespace SharedQueue

/-- What happens without a break. -/
inductive Move
  | add (id : Nat)
  | remove (id : Nat)
  /-- An approval takes out the signal under the id, if there is one. -/
  | take (id : Nat)
  /-- A flush takes out all signals. -/
  | takeAll
  /-- Signal `k` of those under way is sent. -/
  | send (k : Nat)
  /-- Waiter `w` goes away. -/
  | leave (w : Nat)
  deriving Repr

/-- What is seen of a move. -/
inductive Event
  /-- A signal for waiter `w` has been added under the id. -/
  | added (w id : Nat)
  /-- A signal has been thrown away. -/
  | discarded (s : Signal)
  /-- A signal has been sent. The flag says whether the waiter was still there. -/
  | sent (s : Signal) (received : Bool)
  /-- Waiter `w` has gone away. -/
  | left (w : Nat)
  deriving DecidableEq, Repr

/-- Events in their order. -/
abbrev History := List Event

/-- What a move makes of the queue, if it is possible. -/
def move? (s : SharedQueue) : Move → Option SharedQueue
  | .add id => some { s with queue := (s.queue.add id).2 }
  | .remove id => some { s with queue := (s.queue.remove id).2 }
  | .take id =>
    some { queue := s.queue.forget id, underway := s.underway ++ s.queue.signals id }
  | .takeAll =>
    some { queue := { s.queue with pending := [] }, underway := s.underway ++ s.queue.allSignals }
  | .send k => do
    let x ← s.underway[k]?
    some { queue := s.queue.tell x.waiter .released, underway := s.underway.eraseIdx k }
  | .leave w => some { s with queue := s.queue.leave w }

/-- What is seen of a move before it is over. -/
def shows (s : SharedQueue) : Move → History
  | .add id => (s.queue.signals id).map .discarded ++ [.added (s.queue.add id).1 id]
  | .remove id => (s.queue.signals id).map .discarded
  | .take _ | .takeAll => []
  | .send k =>
    (s.underway[k]?).toList.map fun x => .sent x (s.queue.waiter? x.waiter == some .waiting)
  | .leave w => if w < s.queue.waiters.length then [.left w] else []

/-- All histories of a queue whose callers may interrupt one another in any way. -/
def system : StepSystem SharedQueue Move Event := ⟨move?, shows⟩

/-! ## Where a signal is -/

/-- How often the signal of waiter `w` is pending. -/
def pendings (s : SharedQueue) (w : Nat) : Nat := s.queue.pending.countP fun p => p.2 == w

/-- How often the signal of waiter `w` is under way. -/
def sendings (s : SharedQueue) (w : Nat) : Nat := s.underway.countP fun x => x.waiter == w

namespace Event

/-- Waiter `w` gets a signal. -/
def adds (w : Nat) : Event → Bool
  | added v _ => v == w
  | _ => false

/-- The signal of waiter `w` reaches it. -/
def releases (w : Nat) : Event → Bool
  | sent x true => x.waiter == w
  | _ => false

/-- The signal of waiter `w` is lost: thrown away, or sent when the waiter was gone. -/
def discards (w : Nat) : Event → Bool
  | discarded x | sent x false => x.waiter == w
  | _ => false

/-- The waiter that gets a signal under the id. -/
def addedUnder (id : Nat) : Event → Option Nat
  | added w i => if i = id then some w else none
  | _ => none

/-- The signal that is sent or thrown away. -/
def signal? : Event → Option Signal
  | discarded x | sent x _ => some x
  | _ => none

end Event

namespace History

/-- How often a signal for waiter `w` has been added. -/
def additions (h : History) (w : Nat) : Nat := h.countP (Event.adds w)

/-- How often waiter `w` has been released. -/
def releases (h : History) (w : Nat) : Nat := h.countP (Event.releases w)

/-- How often the signal of waiter `w` has been lost. -/
def discards (h : History) (w : Nat) : Nat := h.countP (Event.discards w)

/-- What waiter `w` has been told. -/
def told (h : History) (w : Nat) : Waiter :=
  if .left w ∈ h then .left
  else if 0 < h.releases w then .released
  else if 0 < h.discards w then .dropped
  else .waiting

/-- What becomes of waiter `w`, which has been told nothing yet, when it is told `x`. -/
def hearing (h : History) (w : Nat) (x : Waiter) : Waiter := if .left w ∈ h then .left else x

/-- The waiter whose signal has been added last under the id. -/
def latest? (h : History) (id : Nat) : Option Nat := (h.filterMap (Event.addedUnder id)).getLast?

end History
end SharedQueue
end ForwardProxy.Moderation
