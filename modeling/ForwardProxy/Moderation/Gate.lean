import ForwardProxy.Moderation.Switch
import ForwardProxy.Proxy.Error
import ForwardProxy.Proxy.Session

/-!
# The gate

Every request passes the gate. If moderation is on, the request is recorded and queued, and it waits
until the operator releases or drops it. The switch is looked at twice: before the request is recorded,
and once more when it is in the queue, because the switch may have been turned off in between and
nobody would release it then.

Requests and the operator act at the same time. What each of them does without a break is one move;
everything that can happen is a sequence of moves.
-/

namespace ForwardProxy.Moderation

/-! ## One request -/

/-- How a request leaves the gate. -/
inductive Outcome
  /-- It goes on. -/
  | passed
  /-- The operator has dropped it. -/
  | refused
  /-- It could not be recorded. -/
  | unrecorded
  /-- Its client has gone away. -/
  | cancelled
  deriving DecidableEq, Repr

/-- Where a request is on its way through the gate. -/
inductive Progress
  /-- It has come in. -/
  | arrived
  /-- It is to be recorded. -/
  | recording
  /-- It is recorded under an id and to be queued. -/
  | recorded (id : Nat)
  /-- It is in the queue and has to look at the switch once more. -/
  | queued (id waiter : Nat)
  | waiting (id waiter : Nat)
  /-- It is to be taken out of the queue. -/
  | leaving (id : Nat) (outcome : Outcome)
  /-- Its record is to be forgotten. -/
  | clearing (id : Nat) (outcome : Outcome)
  | done (outcome : Outcome)
  deriving DecidableEq, Repr

/-- A request at the gate. -/
structure Task where
  session : Proxy.Session
  progress : Progress := .arrived
  deriving DecidableEq, Repr

/-- How requests are recorded: the id under which a record is kept, unless that fails, and the state
behind it. -/
abbrev Recorder := State → Record → Option Nat × State

/-- How a store keeps records: the id under which a record is kept, unless that fails, and the log
behind it. -/
abbrev Store := Log → Record → Option Nat × Log

/-- Records in a store, which sees nothing but the log. -/
def Store.recorder (keep : Store) : Recorder := fun s r =>
  ((keep s.log r).1, { s with log := (keep s.log r).2 })

/-- The store that keeps every record under the next id. -/
def Log.store : Store := fun l r => (some (l.save r).1, (l.save r).2)

/-- Records in the log. -/
def recordInLog : Recorder := Log.store.recorder

/-- The outcome for a waiter that waits no longer. -/
def Waiter.outcome? : Waiter → Option Outcome
  | .waiting => none
  | .released => some .passed
  | .dropped | .left => some .refused

/-- The next move of a request. There is none while it waits and when it has left the gate. -/
def Task.advance (keep : Recorder) (s : State) (t : Task) : Option (State × Progress) :=
  match t.progress with
  | .arrived => some (s, if s.enabled then .recording else .done .passed)
  | .recording =>
    match keep s (Record.of t.session.request t.session.remote) with
    | (some id, s) => some (s, .recorded id)
    | (none, s) => some (s, .done .unrecorded)
  | .recorded id =>
    let (waiter, queue) := s.queue.add id
    some ({ s with queue }, .queued id waiter)
  | .queued id waiter => some (s, if s.enabled then .waiting id waiter else .leaving id .passed)
  | .waiting id waiter => do
    let outcome ← (← s.queue.waiter? waiter).outcome?
    some (s, .leaving id outcome)
  | .leaving id outcome => some ((s.remove id).2, .clearing id outcome)
  | .clearing id outcome => some ({ s with log := s.log.finish id }, .done outcome)
  | .done _ => none

/-- The client of a request goes away. A request that does not pause at the moment moves on first. -/
def Task.cancel (s : State) (t : Task) : Option (State × Progress) :=
  match t.progress with
  | .arrived | .recording => some (s, .done .cancelled)
  | .waiting id waiter => some ({ s with queue := s.queue.leave waiter }, .leaving id .cancelled)
  | _ => none

/-! ## All requests and the operator -/

/-- The signal of a waiter, and the id that the operator named to have it sent or thrown away, if it was
one. -/
structure Signal where
  waiter : Nat
  named : Option Nat := none
  deriving DecidableEq, Repr

/-- The requests that have come in, and the state that they share. An approval or a flush first takes
signals out of the queue and then sends them, one after the other; those in between are under way.
Turning the switch off is followed by a flush; `owed` counts the flushes that are still to come. -/
structure Gate where
  state : State
  tasks : List Task := []
  underway : List Signal := []
  owed : Nat := 0
  deriving DecidableEq, Repr

/-- What happens without a break. -/
inductive Move
  /-- A request comes in. -/
  | submit (s : Proxy.Session)
  /-- Request `n` makes its next move. -/
  | advance (n : Nat)
  /-- The client of request `n` goes away. -/
  | cancel (n : Nat)
  /-- An approval takes the signal under the id out of the queue, if there is one. -/
  | approve (id : Nat)
  | drop (id : Nat)
  /-- A flush takes all signals out of the queue. -/
  | flush
  /-- Signal `k` of those under way is sent. -/
  | deliver (k : Nat)
  | turnOn
  /-- The switch is turned off. A flush is owed now. -/
  | turnOff
  /-- An owed flush takes all signals out of the queue. -/
  | flushOwed
  deriving Repr

namespace Gate

/-- A request comes in. Its number is that of the requests before it. -/
def submit (g : Gate) (s : Proxy.Session) : Gate := { g with tasks := g.tasks ++ [⟨s, .arrived⟩] }

/-- Request `n` moves as the function says, if it can. -/
def moveTask (g : Gate) (n : Nat) (f : Task → Option (State × Progress)) : Option Gate := do
  let t ← g.tasks[n]?
  let (state, progress) ← f t
  some { g with state, tasks := g.tasks.set n { t with progress } }

/-- Request `n` makes its next move. -/
def advance (keep : Recorder) (g : Gate) (n : Nat) : Option Gate :=
  g.moveTask n (Task.advance keep g.state)

/-- The client of request `n` goes away. -/
def cancel (g : Gate) (n : Nat) : Option Gate := g.moveTask n (Task.cancel g.state)

/-- The signal under an id is to be sent. -/
def take (g : Gate) (id : Nat) : Gate :=
  match g.state.queue.find? id with
  | some w =>
    { g with
      state := { g.state with queue := g.state.queue.forget id }
      underway := g.underway ++ [⟨w, some id⟩] }
  | none => g

/-- All signals in the queue are to be sent. -/
def takeAll (g : Gate) : Gate :=
  { g with
    state := { g.state with queue := { g.state.queue with pending := [] } }
    underway := g.underway ++ g.state.queue.pending.map fun p => ⟨p.2, none⟩ }

/-- Signal `k` of those under way is sent. -/
def deliver (g : Gate) (k : Nat) : Option Gate := do
  let s ← g.underway[k]?
  some { g with
    state := { g.state with queue := g.state.queue.tell s.waiter .released }
    underway := g.underway.eraseIdx k }

/-- The gate behind a move, if the move is possible. -/
def move? (keep : Recorder) (g : Gate) : Move → Option Gate
  | .submit s => some (g.submit s)
  | .advance n => g.advance keep n
  | .cancel n => g.cancel n
  | .approve id => some (g.take id)
  | .drop id => some { g with state := (g.state.remove id).2 }
  | .flush => some g.takeAll
  | .deliver k => g.deliver k
  | .turnOn => some { g with state := g.state.setSwitch true }
  | .turnOff => some { g with state := g.state.setSwitch false, owed := g.owed + 1 }
  | .flushOwed => if g.owed = 0 then none else some { g.takeAll with owed := g.owed - 1 }

/-- Requests move, always the first that can, until all wait or have left. -/
def calmUpTo (keep : Recorder) : (limit : Nat) → Gate → Gate
  | 0, g => g
  | limit + 1, g =>
    match (List.range g.tasks.length).findSome? (g.advance keep) with
    | some g => calmUpTo keep limit g
    | none => g

/-- No request makes more moves than this. -/
def maxMoves : Nat := 8

/-- The gate when all requests wait or have left. -/
def calm (keep : Recorder) (g : Gate) : Gate :=
  g.calmUpTo keep (maxMoves * (g.tasks.length + 1))

end Gate

/-! ## Answers -/

/-- What the client of a dropped request is told. -/
def notApproved : String := "request was not approved"

/-- What a request gets behind the gate, unless its client has gone away. -/
def Outcome.answer {m : Type → Type} [Monad m] {Conn : Type} (inner : Proxy.Handler m Conn)
    (s : Proxy.Session) : Outcome → Option (m (Proxy.Reply Conn))
  | passed => some (inner s)
  | refused => some (pure (.plain (.ofText 403 notApproved)))
  | unrecorded => some (pure (.plain (.ofText 503 Proxy.unavailableMessage)))
  | cancelled => none

/-- The gate in front of a handler; `pass` says how a request leaves it. A client that has gone away gets no
answer; what becomes of its connection is up to `abandon`. -/
def gated {m : Type → Type} [Monad m] {Conn : Type} (pass : Proxy.Session → m Outcome)
    (abandon : m (Proxy.Reply Conn)) (inner : Proxy.Handler m Conn) : Proxy.Handler m Conn := fun s => do
  ((← pass s).answer inner s).getD abandon

end ForwardProxy.Moderation
