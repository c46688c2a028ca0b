import ForwardProxy.Moderation.History

/-!
# What a move can do

A move of a request is possible in a few ways only. `Task.Moves` and `Task.Quits` name them, so that a
property of all moves is proved case by case, without looking at how the moves are computed.

* `Task.moves_of_advance`: the next move of a request, by its progress. Each constructor has the condition under which
  the move is made, the shared state behind it and the new progress.
* `Task.quits_of_cancel`: what happens to a request whose client goes away. Where it is in the queue, its waiter goes
  with it, but its signal stays pending until the request takes it out.
* `Gate.moveTask_eq_some`, `Gate.flushOwed_eq_some`: how such a move becomes one of the gate.

The store that keeps records is a parameter, given by what it does with a log and a record; only `record` and `fail`
depend on it. A relation is used and not a function with cases, because the later proofs need the conditions as
hypotheses in each case and never the order in which they are checked.
-/

namespace ForwardProxy.Moderation

namespace Task

variable {keep : Store} {s s' : State} {t : Task} {p : Progress}

/-- The moves that a request with the given session makes by itself. -/
inductive Moves (keep : Store) (s : State) (session : Proxy.Session) :
    Progress → State → Progress → Prop
  | pass : s.enabled = false → Moves keep s session .arrived s (.done .passed)
  | hold : s.enabled = true → Moves keep s session .arrived s .recording
  | record {id : Nat} {log : Log} :
      keep s.log (Record.of session.request session.remote) = (some id, log) →
      Moves keep s session .recording { s with log } (.recorded id)
  | fail {log : Log} : keep s.log (Record.of session.request session.remote) = (none, log) →
      Moves keep s session .recording { s with log } (.done .unrecorded)
  | enqueue {id : Nat} :
      Moves keep s session (.recorded id) { s with queue := (s.queue.add id).2 }
        (.queued id (s.queue.add id).1)
  | wait {id w : Nat} : s.enabled = true → Moves keep s session (.queued id w) s (.waiting id w)
  | skip {id w : Nat} : s.enabled = false →
      Moves keep s session (.queued id w) s (.leaving id .passed)
  | hear {id w : Nat} {x : Waiter} {o : Outcome} : s.queue.waiter? w = some x →
      x.outcome? = some o → Moves keep s session (.waiting id w) s (.leaving id o)
  | leave {id : Nat} {o : Outcome} :
      Moves keep s session (.leaving id o) { s with queue := (s.queue.remove id).2 } (.clearing id o)
  | clear {id : Nat} {o : Outcome} :
      Moves keep s session (.clearing id o) { s with log := s.log.finish id } (.done o)

theorem moves_of_advance (hm : t.advance keep.recorder s = some (s', p)) :
    Moves keep s t.session t.progress s' p := by
  obtain ⟨session, progress⟩ := t
  cases progress with
  | arrived =>
    obtain ⟨rfl, rfl⟩ : s = s' ∧ _ = p := by simpa [advance] using hm
    cases hon : s.enabled with
    | true => exact .hold hon
    | false => exact .pass hon
  | recording =>
    cases hk : keep s.log (Record.of session.request session.remote) with
    | mk found log =>
      cases found with
      | some id =>
        obtain ⟨rfl, rfl⟩ : _ = s' ∧ _ = p := by simpa [advance, Store.recorder, hk] using hm
        exact .record hk
      | none =>
        obtain ⟨rfl, rfl⟩ : _ = s' ∧ _ = p := by simpa [advance, Store.recorder, hk] using hm
        exact .fail hk
  | recorded id =>
    obtain ⟨rfl, rfl⟩ : _ = s' ∧ _ = p := by simpa [advance] using hm
    exact .enqueue
  | queued id w =>
    obtain ⟨rfl, rfl⟩ : s = s' ∧ _ = p := by simpa [advance] using hm
    cases hon : s.enabled with
    | true => exact .wait hon
    | false => exact .skip hon
  | waiting id w =>
    obtain ⟨x, hx, o, ho, rfl, rfl⟩ : ∃ x, s.queue.waiter? w = some x ∧
        ∃ o, x.outcome? = some o ∧ s = s' ∧ .leaving id o = p := by
      simpa [advance, Option.bind_eq_some_iff] using hm
    exact .hear hx ho
  | leaving id o =>
    obtain ⟨rfl, rfl⟩ : _ = s' ∧ _ = p := by simpa [advance] using hm
    exact .leave
  | clearing id o =>
    obtain ⟨rfl, rfl⟩ : _ = s' ∧ _ = p := by simpa [advance] using hm
    exact .clear
  | done o => simp [advance] at hm

/-- What happens to a request whose client goes away. -/
inductive Quits (s : State) : Progress → State → Progress → Prop
  | early : Quits s .arrived s (.done .cancelled)
  | unrecorded : Quits s .recording s (.done .cancelled)
  | waiting {id w : Nat} :
      Quits s (.waiting id w) { s with queue := s.queue.leave w } (.leaving id .cancelled)

theorem quits_of_cancel (hm : t.cancel s = some (s', p)) : Quits s t.progress s' p := by
  obtain ⟨session, progress⟩ := t
  cases progress with
  | arrived =>
    obtain ⟨rfl, rfl⟩ : s = s' ∧ _ = p := by simpa [cancel] using hm
    exact .early
  | recording =>
    obtain ⟨rfl, rfl⟩ : s = s' ∧ _ = p := by simpa [cancel] using hm
    exact .unrecorded
  | waiting id w =>
    obtain ⟨rfl, rfl⟩ : _ = s' ∧ _ = p := by simpa [cancel] using hm
    exact .waiting
  | _ => simp [cancel] at hm

end Task

namespace Gate

/-- What a request does to the gate. -/
theorem moveTask_eq_some {g after : Gate} {n : Nat} {f : Task → Option (State × Progress)} :
    g.moveTask n f = some after ↔ ∃ t, g.tasks[n]? = some t ∧ ∃ s p, f t = some (s, p) ∧
      { g with state := s, tasks := g.tasks.set n { t with progress := p } } = after := by
  simp [moveTask, Option.bind_eq_some_iff]

/-- What an owed flush does to the gate. -/
theorem flushOwed_eq_some {g after : Gate} {keep : Recorder} :
    g.move? keep .flushOwed = some after ↔
      g.owed ≠ 0 ∧ { g.takeAll with owed := g.owed - 1 } = after := by
  simp only [move?]
  split <;> simp [*]

/-- The farewell of the request that has moved. -/
theorem farewell_set {g : Gate} {n : Nat} {t : Task} (ht : g.tasks[n]? = some t) (p : Progress) :
    ((g.tasks.set n { t with progress := p })[n]?).elim []
      (fun t => t.progress.farewell n t.session) = p.farewell n t.session := by
  rw [List.getElem?_set_self (List.getElem?_eq_some_iff.mp ht).1, Option.elim_some]

end Gate
end ForwardProxy.Moderation
