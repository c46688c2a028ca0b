/-!
# Step systems

Where several parties act at the same time, what each of them does without a break is one move, and
everything that can happen is a sequence of moves. A step system says which moves are possible and
what is seen of them; its runs are all histories from a state, in which the parties may be interleaved
in any way.
-/

namespace ForwardProxy

/-- What a move makes of a state, if the move is possible, and what is seen of it. -/
structure StepSystem (State Move Event : Type) where
  move? : State → Move → Option State
  shows : State → Move → List Event

namespace StepSystem

variable {State Move Event : Type} (S : StepSystem State Move Event)

/-- Histories and the states they lead to. -/
inductive Run (start : State) : List Event → State → Prop
  | start : Run start [] start
  | move {h : List Event} {s after : State} (m : Move) :
      Run start h s → S.move? s m = some after → Run start (h ++ S.shows s m) after

/-- Histories whose moves may all be made, each in the state in which it is made. -/
inductive RunWith (may : State → Move → Prop) (start : State) : List Event → State → Prop
  | start : RunWith may start [] start
  | move {h : List Event} {s after : State} (m : Move) :
      RunWith may start h s → may s m → S.move? s m = some after → RunWith may start (h ++ S.shows s m) after

/-- The history of a sequence of moves and the state behind it, if all of them are possible. -/
def replay : State → List Move → Option (List Event × State)
  | s, [] => some ([], s)
  | s, m :: ms => do
    let after ← S.move? s m
    let (h, last) ← replay after ms
    some (S.shows s m ++ h, last)

variable {S} {start s after last : State} {h h' : List Event}

/-- One move and then others. -/
theorem replay_cons {m : Move} {ms : List Move} (hm : S.move? s m = some after)
    (hms : S.replay after ms = some (h, last)) :
    S.replay s (m :: ms) = some (S.shows s m ++ h, last) := by
  simp [replay, hm, hms]

/-- A run goes on with any sequence of possible moves. -/
theorem Run.replay {ms : List Move} (r : S.Run start h s) (e : S.replay s ms = some (h', last)) :
    S.Run start (h ++ h') last := by
  induction ms generalizing h h' s with
  | nil =>
    obtain ⟨rfl, rfl⟩ : [] = h' ∧ s = last := by simpa [StepSystem.replay] using e
    rwa [List.append_nil]
  | cons m ms ih =>
    simp only [StepSystem.replay, Option.bind_eq_bind, Option.bind_eq_some_iff] at e
    obtain ⟨after, hm, ⟨rest, last'⟩, hms, e⟩ := e
    obtain ⟨rfl, rfl⟩ : S.shows s m ++ rest = h' ∧ last' = last := by simpa using e
    rw [← List.append_assoc]
    exact ih (r.move m hm) hms

/-- A sequence of possible moves is a run. -/
theorem Run.of_replay {ms : List Move} (e : S.replay start ms = some (h, last)) :
    S.Run start h last := by
  have run : S.Run start ([] ++ h) last := Run.start.replay e
  rwa [List.nil_append] at run

end StepSystem
end ForwardProxy
