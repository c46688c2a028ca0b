import ForwardProxy.Moderation.History
import ForwardProxy.StepSystem

/-!
# The gate over the log

The log counts on to the next id first, and then keeps the record under the id that it has come to.
These are two moves, between which others may draw ids and keep records; so records need not come in
the order of their ids. A request does not pause between the two, so that its client going away is
not noticed there. Ids do not run out: fewer are drawn than the counter can hold.
-/

namespace ForwardProxy.Moderation

/-- The log counts on. The number is the id that it was at. -/
def Log.draw (l : Log) : Nat × Log := (l.nextId, { l with nextId := l.nextId + 1 })

/-- The store that keeps a record under an id that has been drawn for it. -/
def Log.storeUnder (id : Nat) : Store := fun l r => (some id, l.put id r)

/-- Everything that is seen of a move. -/
def Gate.tells (keep : Recorder) (g : Gate) (m : Move) : History :=
  g.shows keep m ++ (g.move? keep m).elim [] fun after => after.farewells m

/-- The gate, and the ids of the requests that have drawn one and are to keep their record under it. -/
structure LoggedGate where
  gate : Gate
  drawn : Nat → Option Nat := fun _ => none

namespace LoggedGate

/-- What happens without a break. -/
inductive Move
  /-- Request `n`, which is to be recorded, draws an id. -/
  | draw (n : Nat)
  /-- The record of request `n` is kept under the id that it has drawn. -/
  | keep (n : Nat)
  /-- Anything else, as at any gate. -/
  | other (m : Moderation.Move)
  deriving Repr

/-- Request `n` has drawn an id, or has none any more. -/
def setDrawn (g : LoggedGate) (n : Nat) (id : Option Nat) : LoggedGate :=
  { g with drawn := fun m => if m = n then id else g.drawn m }

/-- A move that would record a request at once, or interrupt one that is being recorded. -/
def excludes (g : LoggedGate) : Moderation.Move → Bool
  | .advance n => (g.gate.tasks[n]?).any fun t => t.progress == .recording
  | .cancel n => (g.drawn n).isSome
  | _ => false

/-- Request `n` draws an id. -/
def draw (g : LoggedGate) (n : Nat) : Option LoggedGate := do
  let t ← g.gate.tasks[n]?
  if t.progress = .recording ∧ g.drawn n = none then
    let (id, log) := g.gate.state.log.draw
    some ({ g with gate := { g.gate with state := { g.gate.state with log } } }.setDrawn n id)
  else none

/-- The record of request `n` is kept. -/
def keep (g : LoggedGate) (n : Nat) : Option LoggedGate := do
  let id ← g.drawn n
  let gate ← g.gate.advance (Log.storeUnder id).recorder n
  some ({ g with gate }.setDrawn n none)

/-- The gate behind a move, if the move is possible. -/
def move? (g : LoggedGate) : Move → Option LoggedGate
  | .draw n => g.draw n
  | .keep n => g.keep n
  | .other m => if g.excludes m then none else (g.gate.move? recordInLog m).map fun gate => { g with gate }

/-- What is seen of a move. -/
def shows (g : LoggedGate) : Move → History
  | .draw _ => []
  | .keep n => (g.drawn n).elim [] fun id => g.gate.tells (Log.storeUnder id).recorder (.advance n)
  | .other m => g.gate.tells recordInLog m

/-- The gate over the log as a step system. -/
def system : StepSystem LoggedGate Move Event := ⟨move?, shows⟩

/-- A gate that nobody has come to yet. -/
def start (on : Bool) : LoggedGate where
  gate := { state := { enabled := on } }

end LoggedGate

/-! ## What a history says of ids -/

namespace History

/-- The requests that have been recorded, with the ids that the log has given them. -/
def saves (h : History) : List (Nat × Nat) :=
  h.filterMap fun
    | .recorded n (some id) => some (n, id)
    | _ => none

/-- The operator has taken the signal of a waiter out of the queue, by an approval, a flush, or a drop of
the id. -/
def Called (h : History) (id w : Nat) : Prop :=
  (∃ s : Signal, s.waiter = w ∧ .taken s ∈ h) ∨ .discarded ⟨w, some id⟩ ∈ h

end History

/-- The id of a request between the moment when its record is kept and the moment when it is forgotten. -/
def Progress.id? : Progress → Option Nat
  | .recorded id | .queued id _ | .waiting id _ | .leaving id _ | .clearing id _ => some id
  | .arrived | .recording | .done _ => none

/-- The id of a request between the moment when it gets into the queue and the moment when it takes
itself out. -/
def Progress.entry? : Progress → Option Nat
  | .queued id _ | .waiting id _ | .leaving id _ => some id
  | .arrived | .recording | .recorded _ | .clearing _ _ | .done _ => none

/-- What the log is to remember of a request. -/
def Task.record (t : Task) : Record := Record.of t.session.request t.session.remote

end ForwardProxy.Moderation
