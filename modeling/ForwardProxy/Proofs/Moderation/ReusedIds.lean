import ForwardProxy.Moderation.LoggedGate
import ForwardProxy.Proofs.Moderation.Conservation
import ForwardProxy.Proofs.Moderation.Screening

/-!
# Ids that are used twice

A request that is done takes out of the queue what is pending under its id, and nothing else
(`Gate.Run.taken_out`). If the store has given the id away again, that is the entry of a later request,
which is refused although the operator has not been heard (`exists_refused_unheard`). Over the log no id
is given away twice, so that a request finds its own entry or none.

The first result is for any store and any run. The second is a run of two requests over a store that always gives the
same id: each of its moves is possible, which is computed, and the run is what `replay` gives. `History.Unheard` leaves
out every event by which the operator could have had a part in the refusal.
-/

namespace ForwardProxy.Moderation

variable {stores : Store → Prop} {start : State} {h : History} {g : Gate}

/-- The signal that is pending under the id of a request that is done is thrown away, whoever it belongs
to; all other signals stay as they are. -/
theorem Gate.Run.taken_out (r : Gate.Run stores start h g) (hq : start.queue = {}) (keep : Store)
    {n id : Nat} {t : Task} {o : Outcome} (ht : g.tasks[n]? = some t)
    (hp : t.progress = .leaving id o) :
    ∃ after, g.move? keep.recorder (.advance n) = some after ∧
      g.state.queue.SameBut id after.state.queue ∧ after.state.queue.contains id = false ∧
      ∀ w, (id, w) ∈ g.state.queue.pending →
        after.state.queue.waiter? w = some .dropped ∨ after.state.queue.waiter? w = some .left := by
  have accounts : Accounted h g.state.queue g.underway := (r.tracked hq).accounts
  have moves : t.advance keep.recorder g.state = some ((g.state.remove id).2, .clearing id o) := by
    simp [Task.advance, hp]
  refine ⟨_, Gate.moveTask_eq_some.mpr ⟨t, ht, _, _, moves, rfl⟩,
    accounts.orderly.sameBut_remove id, ?_, ?_⟩
  · exact Queue.contains_eq_false_iff.mpr (g.state.queue.find?_remove id)
  · intro w hw
    change (g.state.queue.remove id).2.waiter? w = _ ∨ (g.state.queue.remove id).2.waiter? w = _
    rw [Queue.remove_of_find? (accounts.orderly.find?_eq_some_iff.mpr hw), Queue.waiter?_tell]
    have before : ∀ x, (g.state.queue.forget id).waiter? x = g.state.queue.waiter? x := fun _ => rfl
    rcases accounts.waiting_of_pending hw with hx | hx <;> simp [before, hx]

/-- The operator has not been heard: nothing has been approved, flushed or dropped, and the switch has
always been found on. -/
structure History.Unheard (h : History) : Prop where
  taken : ∀ s, .taken s ∉ h
  discarded : ∀ s, .discarded s ∈ h → s.named = none
  looked : ∀ n, .looked n false ∉ h

/-- Two visits under one id. The second one takes the place of the first one, which goes and takes the
second one out. -/
def sharedVisits : History :=
  [.came 0 visit, .looked 0 true, .recorded 0 (some 1), .queued 0 1 0, .looked 0 true,
    .came 1 visit, .looked 1 true, .recorded 1 (some 1), .discarded ⟨0, none⟩, .queued 1 1 1,
    .looked 1 true, .discarded ⟨1, none⟩, .left 1 visit .refused]

/-- Over a store that gives an id away again, a request can be refused although the operator has not been
heard. -/
theorem exists_refused_unheard :
    ∃ g, Gate.Run (· = Log.storeUnder 1) { enabled := true } sharedVisits g ∧ sharedVisits.Unheard ∧
      (visit, .refused) ∈ sharedVisits.leavings 1 := by
  have moves : Gate.replay (Log.storeUnder 1) { state := { enabled := true } }
      [.submit visit, .advance 0, .advance 0, .advance 0, .advance 0, .submit visit, .advance 1,
        .advance 1, .advance 1, .advance 1, .advance 0, .advance 0, .advance 1, .advance 1,
        .advance 1] = some (sharedVisits, _) := rfl
  have unheard : sharedVisits.Unheard := by
    constructor <;> simp [sharedVisits]
  exact ⟨_, .of_replay moves, unheard, by decide⟩

end ForwardProxy.Moderation
