import ForwardProxy.Moderation.Gate

/-!
# Histories of the gate

What can be seen of the gate while requests and the operator act side by side, in the order in which
it happens, and what a history says of a single request. A run is any sequence of possible moves;
every record may be kept by another store, so that ids may come twice and saving may fail at any time.
-/

namespace ForwardProxy.Moderation

/-! ## Events -/

/-- What can be seen of a move. -/
inductive Event
  /-- Request `n` has come in. -/
  | came (n : Nat) (s : Proxy.Session)
  /-- Request `n` has looked at the switch. -/
  | looked (n : Nat) (on : Bool)
  /-- Request `n` has been given to the store. There is an id unless that has failed. -/
  | recorded (n : Nat) (id : Option Nat)
  /-- Request `n` is in the queue, with a waiter of its own. -/
  | queued (n id waiter : Nat)
  /-- A signal has been taken out of the queue, to be sent: by an approval of the id it names, or by a
  flush. -/
  | taken (s : Signal)
  /-- A signal has been sent. The flag says whether the waiter was still there. -/
  | sent (s : Signal) (received : Bool)
  /-- A signal has been thrown away, in answer to a drop if it names an id. -/
  | discarded (s : Signal)
  /-- The client of request `n` has gone away. -/
  | gone (n : Nat)
  /-- Request `n` has left the gate. -/
  | left (n : Nat) (s : Proxy.Session) (outcome : Outcome)
  deriving DecidableEq, Repr

/-- Events in their order. -/
abbrev History := List Event

/-- The signal that is thrown away when what is pending under an id is removed or replaced. -/
def Queue.thrown (q : Queue) (id : Nat) (named : Option Nat) : History :=
  (q.find? id).toList.map fun w => .discarded ⟨w, named⟩

/-- What a request shows in its next move. -/
def Task.shows (keep : Recorder) (s : State) (n : Nat) (t : Task) : History :=
  match t.progress with
  | .arrived | .queued _ _ => [.looked n s.enabled]
  | .recording => [.recorded n (keep s (Record.of t.session.request t.session.remote)).1]
  | .recorded id => s.queue.thrown id none ++ [.queued n id (s.queue.add id).1]
  | .leaving id _ => s.queue.thrown id none
  | .waiting _ _ | .clearing _ _ | .done _ => []

/-- The outcome for a request that has left the gate. -/
def Progress.outcome? : Progress → Option Outcome
  | .done o => some o
  | _ => none

/-- What request `n` shows when its progress has become this. -/
def Progress.farewell (n : Nat) (s : Proxy.Session) (p : Progress) : History :=
  p.outcome?.toList.map (.left n s)

namespace Gate

/-- What is seen of a move before it is over. -/
def shows (keep : Recorder) (g : Gate) : Move → History
  | .submit s => [.came g.tasks.length s]
  | .advance n => (g.tasks[n]?).elim [] fun t => t.shows keep g.state n
  | .cancel n => [.gone n]
  | .approve id => (g.state.queue.find? id).toList.map fun w => .taken ⟨w, some id⟩
  | .drop id => g.state.queue.thrown id (some id)
  | .flush | .flushOwed => g.state.queue.pending.map fun p => .taken ⟨p.2, none⟩
  | .deliver k =>
    (g.underway[k]?).toList.map fun s =>
      .sent s (g.state.queue.waiter? s.waiter == some .waiting)
  | .turnOn | .turnOff => []

/-- The request that has left by a move, if one has. -/
def farewells (after : Gate) : Move → History
  | .advance n | .cancel n => (after.tasks[n]?).elim [] fun t => t.progress.farewell n t.session
  | _ => []

/-! ## Runs -/

/-- Histories and the gates they lead to, from a state without requests. Records are kept by stores of
a kind, perhaps each by another one. -/
inductive Run (stores : Store → Prop) (start : State) : History → Gate → Prop
  | start : Run stores start [] { state := start }
  | move {h : History} {g after : Gate} {keep : Store} (m : Move) :
      Run stores start h g → stores keep → g.move? keep.recorder m = some after →
      Run stores start (h ++ (g.shows keep.recorder m ++ after.farewells m)) after

/-- The history of a sequence of moves from a gate, and the gate behind it, if all are possible. -/
def replay (keep : Store) : Gate → List Move → Option (History × Gate)
  | g, [] => some ([], g)
  | g, m :: ms => do
    let after ← g.move? keep.recorder m
    let (h, last) ← replay keep after ms
    some (g.shows keep.recorder m ++ after.farewells m ++ h, last)

/-- A sequence of possible moves is a run. -/
theorem Run.replay {stores : Store → Prop} {start : State} {keep : Store} (hk : stores keep) :
    ∀ {ms : List Move} {h h' : History} {g last : Gate}, Run stores start h g →
      g.replay keep ms = some (h', last) → Run stores start (h ++ h') last
  | [], h, h', g, last, r, e => by
    simp only [Gate.replay, Option.some.injEq, Prod.mk.injEq] at e
    obtain ⟨rfl, rfl⟩ := e
    simpa using r
  | m :: ms, h, h', g, last, r, e => by
    simp only [Gate.replay, Option.bind_eq_bind, Option.bind_eq_some_iff] at e
    obtain ⟨after, hm, ⟨rest, last'⟩, hrest, e⟩ := e
    simp only [Option.some.injEq, Prod.mk.injEq] at e
    obtain ⟨rfl, rfl⟩ := e
    have := Run.replay hk (.move m r hk hm) hrest
    simpa only [List.append_assoc] using this

/-- A sequence of possible moves from the start is a run with one store. -/
theorem Run.of_replay {start : State} {keep : Store} {ms : List Move} {h : History} {last : Gate}
    (e : Gate.replay keep { state := start } ms = some (h, last)) : Run (· = keep) start h last := by
  have run : Run (· = keep) start ([] ++ h) last := by
    refine .replay ?_ .start e
    rfl
  rwa [List.nil_append] at run

end Gate

/-! ## What a history says of a request -/

namespace History

/-- How request `n` has left the gate, and with which session. -/
def leavings (h : History) (n : Nat) : List (Proxy.Session × Outcome) :=
  h.filterMap fun
    | .left m s o => if m = n then some (s, o) else none
    | _ => none

/-- Request `n` may go on: it has found the switch off, or its own signal has reached it, sent by an
approval of its id or by a flush. -/
def Cleared (h : History) (n : Nat) : Prop :=
  .looked n false ∈ h ∨
    ∃ id s, .queued n id s.waiter ∈ h ∧ (s.named = none ∨ s.named = some id) ∧ .sent s true ∈ h

/-- The signal of request `n` has been thrown away, and nobody has sent it. -/
def Forsaken (h : History) (n : Nat) : Prop :=
  ∃ id s, .queued n id s.waiter ∈ h ∧ .discarded s ∈ h ∧
    ∀ s' received, s'.waiter = s.waiter → .sent s' received ∉ h

/-- The operator has been told that request `n` is approved, or a flush has taken its signal. -/
def Released (h : History) (n : Nat) : Prop :=
  ∃ id s, .queued n id s.waiter ∈ h ∧
    ((s.named.isSome ∧ .sent s true ∈ h) ∨ (s.named = none ∧ .taken s ∈ h))

/-- The operator has been told that request `n`, which was in the queue, is dropped. -/
def Dropped (h : History) (n : Nat) : Prop :=
  ∃ id w, .queued n id w ∈ h ∧ .discarded ⟨w, some id⟩ ∈ h

/-- What must have happened for request `n` to leave the gate with an outcome. -/
def Grounds (h : History) (n : Nat) : Outcome → Prop
  | .passed => h.Cleared n
  | .refused => h.Forsaken n ∧ ¬ h.Released n
  | .unrecorded => .recorded n none ∈ h
  | .cancelled => .gone n ∈ h

/-- Request `n`, which has come in with the session `s`, has not left the gate yet, or it has left it
once, with the same session, and on good grounds. -/
def Screened (h : History) (n : Nat) (s : Proxy.Session) : Prop :=
  h.leavings n = [] ∨ ∃ o, h.leavings n = [(s, o)] ∧ h.Grounds n o

/-- What is done for request `n`, which has come in with the session `s`, once it has left the gate: the handler
behind the gate is called with that session, or the gate answers, or the request is abandoned. -/
inductive Serves {m : Type → Type} [Monad m] {Conn : Type} (h : History) (n : Nat) (s : Proxy.Session)
    (inner : Proxy.Handler m Conn) (abandon : m (Proxy.Reply Conn)) : m (Proxy.Reply Conn) → Prop
  | passed : h.Cleared n → Serves h n s inner abandon (inner s)
  /-- Its signal has been thrown away unsent, and it has not been released. -/
  | refused : h.Forsaken n → ¬ h.Released n →
      Serves h n s inner abandon (pure (.plain (.ofText 403 notApproved)))
  | unrecorded : .recorded n none ∈ h →
      Serves h n s inner abandon (pure (.plain (.ofText 503 Proxy.unavailableMessage)))
  /-- Its client has gone away. -/
  | cancelled : .gone n ∈ h → Serves h n s inner abandon abandon

end History
end ForwardProxy.Moderation
