import ForwardProxy.Proofs.Moderation.Screening

/-!
# Waiting requests

A request goes on to wait only if it has found the switch on when its signal was in the queue
already. The switch may be turned off right after that; but then a flush is owed, and it will take
the signal. So nobody waits for a signal that nothing would ever release.

* `Task.advance_spec`, `Task.cancel_spec`: what a request does to the switch and to the queue, and when it begins to
  wait.
* `Tracked.minded_of_move`: one move. Turning the switch off makes a flush owed, and an owed flush takes all signals
  that are pending, so behind it nothing is held that was held before. A request that begins to wait has just found
  the switch on.
* `Gate.Run.minded`: all runs. The step needs that a signal which is added is new, so the induction carries `Tracked`.
* `Tracked.exists_advance`: a request whose signal is neither pending nor under way has been told, and can go on.
* `nobody_is_stranded`: the three together.

To turn the switch off and to flush the queue are two moves, as they are two steps in the program, and anything may
happen in between. What is stated is safety: that an owed flush is ever made is up to whoever owes it.
-/

namespace ForwardProxy.Moderation

/-! ## Moves of one request -/

namespace Task

variable {keep : Store} {s s' : State} {t : Task} {p : Progress}

/-- A request does not touch the switch, puts nothing into the queue but a signal of its own, which is
new, and begins to wait only if the switch is on. -/
theorem advance_spec (hm : t.advance keep.recorder s = some (s', p)) :
    s'.enabled = s.enabled ∧
    (∀ e ∈ s'.queue.pending, e ∈ s.queue.pending ∨ e.2 = s.queue.waiters.length) ∧
    ((∃ id w, p = .waiting id w) → s.enabled = true) := by
  have moves := moves_of_advance hm
  obtain ⟨session, progress⟩ := t
  cases moves with
  | pass | hold | record | fail | skip | hear | clear =>
    exact ⟨rfl, fun e he => .inl he, by simp⟩
  | enqueue => exact ⟨rfl, fun e he => Queue.mem_of_mem_add he, by simp⟩
  | wait hon => exact ⟨rfl, fun e he => .inl he, fun _ => hon⟩
  | leave => exact ⟨rfl, fun e he => .inl (Queue.mem_of_mem_remove he), by simp⟩

/-- A request whose client goes away touches neither the switch nor what is pending, and it does not
wait any longer. -/
theorem cancel_spec (hm : t.cancel s = some (s', p)) :
    s'.enabled = s.enabled ∧ s'.queue.pending = s.queue.pending ∧ ¬ ∃ id w, p = .waiting id w := by
  have quits := quits_of_cancel hm
  obtain ⟨session, progress⟩ := t
  cases quits with
  | early | unrecorded => exact ⟨rfl, rfl, by simp⟩
  | waiting => exact ⟨rfl, Queue.leave_pending _ _, by simp⟩

end Task

/-! ## Held requests -/

/-- A request waits for its signal `w`, and the signal is in the queue. -/
def Gate.Holds (g : Gate) (w : Nat) : Prop :=
  (∃ t ∈ g.tasks, ∃ id, t.progress = .waiting id w) ∧ ∃ id, (id, w) ∈ g.state.queue.pending

/-- Someone is going to release what is held: the operator, as long as moderation is on, or else a
flush that is still to come. -/
def Gate.Minded (g : Gate) : Prop := g.state.enabled = true ∨ 0 < g.owed

variable {h : History} {g after : Gate} {w : Nat}

/-- A waiter that a request waits for has been handed out. -/
theorem Tracked.lt_of_waiting (T : Tracked h g) {t : Task} (ht : t ∈ g.tasks) {id : Nat}
    (hw : t.progress = .waiting id w) : w < g.state.queue.waiters.length := by
  obtain ⟨n, hn⟩ := List.mem_iff_getElem?.mp ht
  have backed := T.backed hn
  rw [hw] at backed
  exact T.accounts.queued_known backed.1

/-- After every move, what is held is minded if it was held and minded before, or in any case. -/
theorem Tracked.minded_of_move (T : Tracked h g) {keep : Store} {m : Move}
    (hm : g.move? keep.recorder m = some after) (hw : after.Holds w)
    (ih : g.Holds w → g.Minded) : after.Minded := by
  obtain ⟨⟨t', ht', id, hp⟩, id', he⟩ := hw
  cases m with
  | submit s =>
    obtain rfl := Option.some.inj hm
    rcases List.mem_append.mp ht' with ht' | ht'
    · exact ih ⟨⟨t', ht', id, hp⟩, id', he⟩
    · rw [List.mem_singleton.mp ht'] at hp
      cases hp
  | advance n =>
    obtain ⟨t, -, s, p, hf, rfl⟩ := Gate.moveTask_eq_some.mp hm
    obtain ⟨switch, pending, waits⟩ := Task.advance_spec hf
    rcases List.mem_or_eq_of_mem_set ht' with ht' | rfl
    · have old : (id', w) ∈ g.state.queue.pending :=
        (pending _ he).resolve_right (Nat.ne_of_lt (T.lt_of_waiting ht' hp))
      have minded : g.Minded := ih ⟨⟨t', ht', id, hp⟩, id', old⟩
      rwa [Gate.Minded, ← switch] at minded
    · exact .inl (switch.trans (waits ⟨id, w, hp⟩))
  | cancel n =>
    obtain ⟨t, -, s, p, hf, rfl⟩ := Gate.moveTask_eq_some.mp hm
    obtain ⟨switch, pending, waits⟩ := Task.cancel_spec hf
    rcases List.mem_or_eq_of_mem_set ht' with ht' | rfl
    · have minded : g.Minded := ih ⟨⟨t', ht', id, hp⟩, id', pending ▸ he⟩
      rwa [Gate.Minded, ← switch] at minded
    · exact absurd ⟨id, w, hp⟩ waits
  | approve id'' =>
    obtain rfl := Option.some.inj hm
    cases hf : g.state.queue.find? id'' with
    | none =>
      have same : g.take id'' = g := by simp [Gate.take, hf]
      rw [same] at ht' he ⊢
      exact ih ⟨⟨t', ht', id, hp⟩, id', he⟩
    | some w' =>
      simp only [Gate.take, hf, Queue.mem_forget] at ht' he
      have minded : g.Minded := ih ⟨⟨t', ht', id, hp⟩, id', he.1⟩
      have same : (g.take id'').Minded = g.Minded := by simp [Gate.take, hf, Gate.Minded]
      rwa [same]
  | drop id'' =>
    obtain rfl := Option.some.inj hm
    exact ih ⟨⟨t', ht', id, hp⟩, id', Queue.mem_of_mem_remove he⟩
  | flush =>
    obtain rfl := Option.some.inj hm
    cases he
  | deliver k =>
    obtain ⟨s, -, hm⟩ := Option.bind_eq_some_iff.mp hm
    obtain rfl := Option.some.inj hm
    exact ih ⟨⟨t', ht', id, hp⟩, id', by simpa using he⟩
  | turnOn =>
    obtain rfl := Option.some.inj hm
    exact .inl rfl
  | turnOff =>
    obtain rfl := Option.some.inj hm
    exact .inr (Nat.succ_pos _)
  | flushOwed =>
    obtain ⟨-, rfl⟩ := Gate.flushOwed_eq_some.mp hm
    cases he

/-- In every run, what is held is minded. -/
theorem Gate.Run.minded {stores : Store → Prop} {start : State}
    (r : Gate.Run stores start h g) (hq : start.queue = {}) (hw : g.Holds w) : g.Minded := by
  induction r with
  | start =>
    obtain ⟨⟨t, ht, -⟩, -⟩ := hw
    cases ht
  | move m r _ hm ih => exact (r.tracked hq).minded_of_move hm hw ih

/-- A request that waits for a signal which is neither in the queue nor under way can go on. -/
theorem Tracked.exists_advance (T : Tracked h g) (keep : Store) {n id : Nat} {t : Task}
    (ht : g.tasks[n]? = some t) (hp : t.progress = .waiting id w)
    (hfree : ∀ id', (id', w) ∉ g.state.queue.pending) (hway : ∀ s ∈ g.underway, s.waiter ≠ w) :
    ∃ after, g.advance keep.recorder n = some after := by
  have backed := T.backed ht
  rw [hp] at backed
  obtain ⟨x, hx⟩ := Queue.exists_waiter? (T.accounts.queued_known backed.1)
  have told : x ≠ .waiting := by
    rintro rfl
    rcases T.accounts.waiting hx with ⟨⟨id', w'⟩, he, rfl⟩ | ⟨s, hs, hw⟩
    · exact hfree id' he
    · exact hway s hs hw
  have can : ∃ o, x.outcome? = some o := by
    cases x with
    | waiting => exact absurd rfl told
    | _ => exact ⟨_, rfl⟩
  obtain ⟨o, ho⟩ := can
  have moves : t.advance keep.recorder g.state = some (g.state, .leaving id o) := by
    simp [Task.advance, hp, hx, ho]
  exact ⟨_, Gate.moveTask_eq_some.mpr ⟨t, ht, _, _, moves, rfl⟩⟩

/-- Nobody is stranded when moderation is turned off. What a request waits for is in the queue only while
moderation is on or a flush is owed. Once it is off, no flush is owed and all signals have been sent, every
request that waits can go on. -/
theorem nobody_is_stranded {stores : Store → Prop} {on : Bool} (keep : Store)
    (r : Gate.Run stores { enabled := on } h g) :
    (g.Holds w → g.state.enabled = true ∨ 0 < g.owed) ∧
    (g.state.enabled = false → g.owed = 0 → ¬ g.Holds w) ∧
    (g.state.enabled = false → g.owed = 0 → g.underway = [] →
      ∀ {n id : Nat} {t : Task}, g.tasks[n]? = some t → t.progress = .waiting id w →
        ∃ after, g.advance keep.recorder n = some after) := by
  have minded : g.Holds w → g.Minded := r.minded rfl
  have free (hoff : g.state.enabled = false) (howed : g.owed = 0) : ¬ g.Holds w := by
    intro holds
    rcases minded holds with hon | hpos
    · exact Bool.false_ne_true (hoff.symm.trans hon)
    · exact Nat.ne_of_gt hpos howed
  refine ⟨minded, free, ?_⟩
  intro hoff howed hway n id t ht hp
  refine (r.tracked rfl).exists_advance keep ht hp ?_ (by simp [hway])
  intro id' he
  exact free hoff howed ⟨⟨t, List.mem_of_getElem? ht, id, hp⟩, id', he⟩

/-- A visit that waits while the switch has just been turned off. -/
def heldVisit : Gate where
  state := {
    enabled := false
    queue := { pending := [(1, 0)], waiters := [.waiting] }
    log := (({} : Log).save (Record.of visit.request visit.remote)).2 }
  tasks := [⟨visit, .waiting 1 0⟩]
  owed := 1

theorem nobody_is_stranded_held :
    ∃ h, Gate.Run (· = Log.store) { enabled := true } h heldVisit ∧ heldVisit.Holds 0 ∧
      (heldVisit.state.enabled = true ∨ 0 < heldVisit.owed) := by
  have moves : Gate.replay Log.store { state := { enabled := true } }
      [.submit visit, .advance 0, .advance 0, .advance 0, .advance 0, .turnOff] =
        some (_, heldVisit) := rfl
  have holds : heldVisit.Holds 0 :=
    ⟨⟨⟨visit, .waiting 1 0⟩, List.mem_singleton_self _, 1, rfl⟩, 1, List.mem_singleton_self _⟩
  have run := Gate.Run.of_replay moves
  exact ⟨_, run, holds, (nobody_is_stranded Log.store run).1 holds⟩

end ForwardProxy.Moderation
