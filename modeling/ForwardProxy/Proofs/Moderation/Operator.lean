import ForwardProxy.Moderation.History

/-!
# The operator's commands as moves

An approval, a flush or a turn of the switch that nothing interrupts does to the shared state what its
moves do one after the other. So whatever is true of all runs is true when the operator's commands are
carried out as a whole.

* `replay_approve`, `replay_approve_none`: the entry is taken out, and then its signal is sent.
* `replay_flush`: all entries are taken out at once, and then the signals are sent one by one. The induction of
  `replay_deliver` is on the signals, and those that are under way from before stay in front of them.
* `foldl_tell`: waiters are told in the same way whether the entries have been taken out before or after.

The histories of these replays are not given, only that there is one; what a command shows is read off its moves.
-/

namespace ForwardProxy.Moderation

namespace Gate

variable (keep : Store) {g : Gate}

/-- One move and then others. -/
theorem replay_cons {m : Move} {ms : List Move} {after last : Gate} {h : History}
    (hm : g.move? keep.recorder m = some after) (hms : after.replay keep ms = some (h, last)) :
    g.replay keep (m :: ms) = some (g.shows keep.recorder m ++ after.farewells m ++ h, last) := by
  simp [replay, hm, hms]

/-- The gate once some signals have been sent. -/
def sendAll (g : Gate) (ss : List Signal) : Gate :=
  { g with
    state := { g.state with
      queue := ss.foldl (fun q s => q.tell s.waiter .released) g.state.queue } }

/-- Signals that are under way behind others are sent one after the other. -/
theorem replay_deliver {u : List Signal} :
    ∀ {ss : List Signal} {g : Gate}, g.underway = u ++ ss →
      ∃ h, g.replay keep (List.replicate ss.length (.deliver u.length)) =
        some (h, { g.sendAll ss with underway := u })
  | [], g, hu => by
    rw [List.append_nil] at hu
    exact ⟨[], by simp [replay, sendAll, ← hu]⟩
  | s :: ss, g, hu => by
    have first : g.underway[u.length]? = some s := by simp [hu]
    have rest : g.underway.eraseIdx u.length = u ++ ss := by
      rw [hu, List.eraseIdx_append_of_length_le (Nat.le_refl _)]
      simp
    have sent : g.move? keep.recorder (.deliver u.length) =
        some { g.sendAll [s] with underway := u ++ ss } := by
      simp [move?, deliver, first, rest, sendAll]
    obtain ⟨h, hms⟩ := replay_deliver (rfl : { g.sendAll [s] with underway := u ++ ss }.underway = _)
    exact ⟨_, replay_cons keep sent hms⟩

/-- An approval of an id that something is pending under. -/
theorem replay_approve {id w : Nat} (hf : g.state.queue.find? id = some w) :
    ∃ h, g.replay keep [.approve id, .deliver g.underway.length] =
      some (h, { g with state := (g.state.approve id).2 }) := by
  have underway : (g.take id).underway = g.underway ++ [⟨w, some id⟩] := by simp [take, hf]
  obtain ⟨h, sent⟩ := replay_deliver keep underway
  have approved : { (g.take id).sendAll [⟨w, some id⟩] with underway := g.underway } =
      { g with state := (g.state.approve id).2 } := by
    by_cases hw : g.state.queue.waiter? w = some .waiting <;>
      simp [sendAll, take, hf, State.approve, Queue.approve, hw]
  rw [approved] at sent
  exact ⟨_, replay_cons keep rfl sent⟩

/-- An approval of an id that nothing is pending under. -/
theorem replay_approve_none {id : Nat} (hf : g.state.queue.find? id = none) :
    ∃ h, g.replay keep [.approve id] = some (h, { g with state := (g.state.approve id).2 }) := by
  have nothing : g.move? keep.recorder (.approve id) =
      some { g with state := (g.state.approve id).2 } := by
    simp [move?, take, State.approve, Queue.approve, hf]
  exact ⟨_, replay_cons keep nothing rfl⟩

/-- Telling waiters has nothing to do with what is pending. -/
theorem foldl_tell (ps ps' : List (Nat × Nat)) (q : Queue) :
    (ps.map fun p => (⟨p.2, none⟩ : Signal)).foldl (fun q s => q.tell s.waiter .released)
        { q with pending := ps' } =
      { ps.foldl (fun q p => q.tell p.2 .released) q with pending := ps' } := by
  induction ps generalizing q with
  | nil => rfl
  | cons p ps ih =>
    have told : ({ q with pending := ps' } : Queue).tell p.2 .released =
        { q.tell p.2 .released with pending := ps' } := by
      by_cases hw : q.waiters[p.2]? = some .waiting <;> simp [Queue.tell, Queue.waiter?, hw]
    rw [List.map_cons, List.foldl_cons, List.foldl_cons, told, ih]

/-- A flush. -/
theorem replay_flush :
    ∃ h, g.replay keep (.flush :: List.replicate g.state.queue.count (.deliver g.underway.length)) =
      some (h, { g with state := (g.state.flush).2 }) := by
  obtain ⟨h, sent⟩ := replay_deliver keep (rfl : g.takeAll.underway = _)
  rw [List.length_map] at sent
  have flushed : { g.takeAll.sendAll (g.state.queue.pending.map fun p => ⟨p.2, none⟩) with
      underway := g.underway } = { g with state := (g.state.flush).2 } := by
    simp only [sendAll, takeAll, State.flush, Queue.flush, foldl_tell]
  rw [flushed] at sent
  exact ⟨_, replay_cons keep rfl sent⟩

end Gate
end ForwardProxy.Moderation
