import ForwardProxy.Proofs.Moderation.Requests

/-!
# Screening

Whatever else goes on, a request leaves the gate once at most, unchanged, and on good grounds. Of
the signal of a request that is refused, it is known besides that nobody has taken it: a signal that
has been taken is never thrown away.

* `Gate.Run.tracked`: the invariant holds in every run, by induction on its moves.
* `Tracked.grounds`: the reason for which a request leaves is a good one. A refusal has to rule out what would have
  made it wrong, that the signal had been taken or sent before; this is where `not_sent` and `not_released` come in.
* `Tracked.screened`: every request that has come in.
* `History.Screened.serves`: what is done for a request that is screened, once its outcome is known. A handler takes
  this up that is behind a gate: it is called, or its place is taken by a refusal, and the grounds are in the history.
* `Tracked.looked_of_dropped`, `exists_passed_of_dropped`: a request that the operator has dropped goes on only if it
  finds the switch off afterwards, and that may happen.

The store is any: ids may be given out twice, and a record may fail to be kept. What depends on ids being used once is
left to the modules on the log.
-/

namespace ForwardProxy.Moderation

variable {stores : Store → Prop} {start : State} {h : History} {g : Gate}

/-- The history of a run tells of every request what it has done. -/
theorem Gate.Run.tracked (r : Gate.Run stores start h g) (hq : start.queue = {}) :
    Tracked h g := by
  induction r with
  | start => exact .at_start hq
  | move m _ _ hm ih => exact ih.after_move hm

namespace Tracked

/-- Nobody sends a signal that has been thrown away. -/
theorem not_sent (T : Tracked h g) {s s' : Signal} {received : Bool} (hd : .discarded s ∈ h)
    (hw : s'.waiter = s.waiter) : .sent s' received ∉ h :=
  fun sent => T.accounts.exclusive (T.accounts.sent_taken sent) hd hw

/-- A request whose signal has been thrown away has not been released. -/
theorem not_released (T : Tracked h g) {n id : Nat} {s : Signal} (hq : .queued n id s.waiter ∈ h)
    (hd : .discarded s ∈ h) : ¬ h.Released n := by
  rintro ⟨id', s', hq', released⟩
  have hw : s'.waiter = s.waiter := T.single hq' hq
  rcases released with ⟨-, sent⟩ | ⟨-, taken⟩
  · exact T.not_sent hd hw sent
  · exact T.accounts.exclusive taken hd hw

/-- The reason for which a request leaves is a good one. -/
theorem grounds (T : Tracked h g) {n : Nat} {o : Outcome} (hr : h.Reason n o) : h.Grounds n o := by
  cases o with
  | passed | unrecorded | cancelled => exact hr
  | refused =>
    obtain ⟨id, s, hq, hd⟩ := hr
    exact ⟨⟨id, s, hq, hd, fun s' _ hw => T.not_sent hd hw⟩, T.not_released hq hd⟩

/-- Every request that has come in is screened. -/
theorem screened (T : Tracked h g) {n : Nat} {s : Proxy.Session} (hc : .came n s ∈ h) :
    h.Screened n s := by
  obtain ⟨t, ht, rfl⟩ := T.came hc
  have leavings : h.leavings n = t.progress.outcome?.toList.map (t.session, ·) := by
    rw [T.leavings, ht, Option.elim_some]
    rfl
  have backed := T.backed ht
  obtain ⟨session, progress⟩ := t
  cases progress with
  | done o => exact .inr ⟨o, leavings, T.grounds backed⟩
  | _ => exact .inl leavings

end Tracked

/-- A request that is screened is served as its outcome says. -/
theorem History.Screened.serves {n : Nat} {s : Proxy.Session} (hs : h.Screened n s) {o : Outcome}
    (left : h.leavings n = [(s, o)]) {m : Type → Type} [Monad m] {Conn : Type}
    (inner : Proxy.Handler m Conn) (abandon : m (Proxy.Reply Conn)) :
    h.Serves n s inner abandon ((o.answer inner s).getD abandon) := by
  have grounds : h.Grounds n o := by
    rcases hs with hs | ⟨o', hs, grounds⟩
    · simp [hs] at left
    · obtain rfl : o' = o := by simpa [hs] using left
      exact grounds
  cases o with
  | passed => exact .passed grounds
  | refused => exact .refused grounds.1 grounds.2
  | unrecorded => exact .unrecorded grounds
  | cancelled => exact .cancelled grounds

/-! ## Dropped requests -/

namespace Tracked

/-- A request has left the gate for a reason. -/
theorem reason_of_leaving (T : Tracked h g) {n : Nat} {s : Proxy.Session} {o : Outcome}
    (hl : (s, o) ∈ h.leavings n) : h.Reason n o := by
  rw [T.leavings] at hl
  cases ht : g.tasks[n]? with
  | none => simp [ht] at hl
  | some t =>
    have backed := T.backed ht
    obtain ⟨session, progress⟩ := t
    cases progress with
    | done o' =>
      obtain ⟨-, rfl⟩ : s = session ∧ o = o' := by
        simpa [ht, Task.leaving, Progress.outcome?] using hl
      exact backed
    | _ => simp [ht, Task.leaving, Progress.outcome?] at hl

/-- A dropped request goes on only if it finds the switch off. -/
theorem looked_of_dropped (T : Tracked h g) {n : Nat} {s : Proxy.Session} (hd : h.Dropped n)
    (hl : (s, .passed) ∈ h.leavings n) : .looked n false ∈ h := by
  obtain ⟨id, w, hq, discarded⟩ := hd
  rcases T.reason_of_leaving hl with looked | ⟨id', s', hq', -, sent⟩
  · exact looked
  · exact absurd sent (T.not_sent discarded (T.single hq' hq))

end Tracked

/-- A request from this computer. -/
def visit : Proxy.Session where
  request := { uri := .origin .root }
  remote := ⟨.v4 [127, 0, 0, 1], 4000⟩

/-- A visit that is dropped as soon as it is in the queue. Before it looks at the switch once more,
moderation is turned off. -/
def droppedVisit : History :=
  [.came 0 visit, .looked 0 true, .recorded 0 (some 1), .queued 0 1 0, .discarded ⟨0, some 1⟩,
    .looked 0 false, .left 0 visit .passed]

/-- A drop is not final: a request that has been dropped can still go on. -/
theorem exists_passed_of_dropped :
    ∃ g, Gate.Run (· = Log.store) { enabled := true } droppedVisit g ∧ droppedVisit.Dropped 0 ∧
      (visit, .passed) ∈ droppedVisit.leavings 0 := by
  have moves : Gate.replay Log.store { state := { enabled := true } }
      [.submit visit, .advance 0, .advance 0, .advance 0, .drop 1, .turnOff, .flushOwed, .advance 0,
        .advance 0, .advance 0] = some (droppedVisit, _) := rfl
  exact ⟨_, .of_replay moves, ⟨1, 0, by simp [droppedVisit]⟩, by decide⟩

end ForwardProxy.Moderation
