import ForwardProxy.Proofs.Moderation.Entries
import ForwardProxy.Proofs.Moderation.Screening

/-!
# Queue and log in step

The log has the records of those requests that have been recorded and have not left the gate, and what
is pending in the queue belongs to some of them. It follows that nothing is left behind, however a request
comes to its end.

* `LoggedGate.Sound`: the three invariants together: what requests have done (`Tracked`), ids and records (`Filed`),
  and the entries of the queue (`Entered`).
* `Sound.after_draw`, `after_keep`, `after_advance`, `after_cancel`, `after_operate`: one lemma for each kind of move,
  and from these `Sound.after_move` and `LoggedGate.sound_of_run`. All moves of the operator are one case.
* `queue_and_log_in_step`: what can be read off the invariants, by `History.InStep`.
* `run_of_gate`: a gate in which a request is recorded at once is a special case of this one.

## How the three go together

A request that takes its entry out of the queue must not hit that of another one, which `Entered` cannot tell. But
whoever has an entry has been recorded under its id (`saved_of_entry`), and by `Filed` an id is saved for one request
only. So the hypothesis `halone` of the lemmas on entries is met.

To record a request takes two moves here: an id is drawn, and then the record is kept under it. Other requests may
come between, so the ids in the log need not be in the order of the requests. The gate's own move that records at
once is excluded, and so is the client's going away while an id is drawn (`excludes`); all other moves are the gate's.
-/

namespace ForwardProxy.Moderation

/-! ## Moves -/

/-- All that is seen of a possible move. -/
theorem Gate.tells_eq {g after : Gate} {keep : Recorder} {m : Move} (hm : g.move? keep m = some after) :
    g.tells keep m = g.shows keep m ++ after.farewells m := by
  rw [tells, hm, Option.elim_some]

/-- An approval takes out what is pending under the id. -/
theorem Gate.mem_take {g : Gate} {id : Nat} {p : Nat × Nat} :
    p ∈ (g.take id).state.queue.pending ↔ p ∈ g.state.queue.pending ∧ p.1 ≠ id := by
  unfold take
  split
  · exact Queue.mem_forget
  · rename_i hf
    exact ⟨fun hp => ⟨hp, Queue.find?_eq_none_iff.mp hf p hp⟩, And.left⟩

theorem Gate.take_tasks (g : Gate) (id : Nat) : (g.take id).tasks = g.tasks := by
  unfold take
  split <;> rfl

theorem Gate.take_log (g : Gate) (id : Nat) : (g.take id).state.log = g.state.log := by
  unfold take
  split <;> rfl

/-- A request is recorded under an id that has been drawn for it. -/
theorem Gate.advance_storeUnder {g : Gate} {n : Nat} {t : Task} (ht : g.tasks[n]? = some t)
    (hp : t.progress = .recording) (id : Nat) :
    g.advance (Log.storeUnder id).recorder n = some { g with
      state := { g.state with log := g.state.log.put id t.record }
      tasks := g.tasks.set n { t with progress := .recorded id } } := by
  simp [advance, moveTask, ht, Task.advance, hp, Store.recorder, Log.storeUnder, Task.record]

theorem Gate.tells_storeUnder {g : Gate} {n : Nat} {t : Task} (ht : g.tasks[n]? = some t)
    (hp : t.progress = .recording) (id : Nat) :
    g.tells (Log.storeUnder id).recorder (.advance n) = [.recorded n (some id)] := by
  rw [tells_eq (m := .advance n) (advance_storeUnder ht hp id), shows, farewells, farewell_set ht, ht,
    Option.elim_some, Task.shows, hp]
  rfl

namespace LoggedGate

variable {g after : LoggedGate} {n : Nat}

theorem draw_eq_some : g.draw n = some after ↔
    ∃ t, g.gate.tasks[n]? = some t ∧ t.progress = .recording ∧ g.drawn n = none ∧
      setDrawn { g with gate := { g.gate with
        state := { g.gate.state with log := g.gate.state.log.draw.2 } } } n
          (some g.gate.state.log.nextId) = after := by
  simp only [draw, Option.bind_eq_bind, Option.bind_eq_some_iff]
  constructor
  · rintro ⟨t, ht, hm⟩
    split at hm
    · rename_i h
      exact ⟨t, ht, h.1, h.2, Option.some.inj hm⟩
    · simp at hm
  · rintro ⟨t, ht, hp, hd, rfl⟩
    exact ⟨t, ht, if_pos ⟨hp, hd⟩⟩

theorem keep_eq_some : g.keep n = some after ↔
    ∃ id gate, g.drawn n = some id ∧ g.gate.advance (Log.storeUnder id).recorder n = some gate ∧
      setDrawn { g with gate } n none = after := by
  simp [keep, Option.bind_eq_some_iff]

theorem other_eq_some {m : Moderation.Move} : g.move? (.other m) = some after ↔
    g.excludes m = false ∧ ∃ gate, g.gate.move? recordInLog m = some gate ∧ { g with gate } = after := by
  rw [move?]
  cases g.excludes m <;> simp

end LoggedGate

/-! ## What every run keeps -/

/-- The history tells what requests have done, and queue and log are theirs. -/
structure LoggedGate.Sound (h : History) (g : LoggedGate) : Prop where
  tracked : Tracked h g.gate
  filed : Filed h g
  entered : Entered h g.gate

namespace LoggedGate.Sound

variable {h : History} {g after : LoggedGate} {n m id : Nat} {t : Task}

theorem at_start (on : Bool) : Sound [] (LoggedGate.start on) :=
  ⟨.at_start rfl, .at_start on, .at_start rfl⟩

/-- Who is in the queue has been recorded under its id. -/
theorem saved_of_entry (S : Sound h g) (he : g.gate.entry n = some id) : (n, id) ∈ h.saves := by
  obtain ⟨r, hf⟩ := Gate.filed_of_entry he
  exact S.filed.saved hf

theorem find?_of_mem (S : Sound h g) {p : Nat × Nat} (hp : p ∈ g.gate.state.queue.pending) :
    g.gate.state.queue.find? p.1 = some p.2 :=
  S.tracked.accounts.orderly.find?_eq_some_iff.mpr hp

/-- A request draws an id. -/
theorem after_draw (S : Sound h g) (hm : g.draw n = some after) : Sound h after := by
  obtain ⟨t, ht, hp, -, rfl⟩ := draw_eq_some.mp hm
  obtain ⟨T, F, E⟩ := S
  exact ⟨⟨T.accounts, T.came, T.numbered, T.single, T.backed, T.leavings⟩, F.after_draw ht hp,
    ⟨E.owned, E.entered, E.stays⟩⟩

/-- A record is kept. -/
theorem after_keep (S : Sound h g) (hm : g.keep n = some after) :
    Sound (h ++ (g.drawn n).elim [] fun id =>
      g.gate.tells (Log.storeUnder id).recorder (.advance n)) after := by
  obtain ⟨id, gate, hd, hgate, rfl⟩ := keep_eq_some.mp hm
  obtain ⟨t, ht, hp⟩ := S.filed.drawing hd
  have tracked : Tracked (h ++ g.gate.tells (Log.storeUnder id).recorder (.advance n)) gate := by
    rw [Gate.tells_eq (m := .advance n) hgate]
    exact S.tracked.after_move (m := .advance n) hgate
  rw [hd, Option.elim_some]
  rw [Gate.tells_storeUnder ht hp] at tracked ⊢
  obtain rfl := Option.some.inj ((Gate.advance_storeUnder ht hp id).symm.trans hgate)
  have unfiled : g.gate.filed n = none := by
    rw [Gate.filed, Gate.about, ht, Option.bind_some, Task.filed, hp]
    rfl
  refine ⟨tracked, ?_, ?_⟩
  · exact S.filed.after_keep hd unfiled rfl (fun _ => rfl) (Gate.about_set ht)
      (Gate.over_set ht (by rw [hp]; rfl)) fun hm => List.getElem?_set_ne (Ne.symm hm)
  · exact S.entered.after_set_task ht (by simp) rfl (by rw [hp]; rfl)

/-- A request makes a move of its own, but is not recorded. -/
theorem after_advance (S : Sound h g) (hx : g.excludes (.advance n) = false) {gate : Gate}
    (hm : g.gate.advance recordInLog n = some gate) :
    Sound (h ++ g.gate.tells recordInLog (.advance n)) { g with gate } := by
  have tells := Gate.tells_eq (m := .advance n) hm
  have tracked : Tracked (h ++ g.gate.tells recordInLog (.advance n)) gate := by
    rw [tells]
    exact S.tracked.after_move (m := .advance n) hm
  obtain ⟨t, ht, s, p, hf, rfl⟩ := Gate.moveTask_eq_some.mp hm
  rw [Gate.shows, Gate.farewells, Gate.farewell_set ht, ht, Option.elim_some] at tells
  have hne : t.progress ≠ .recording := by simpa [excludes, ht] using hx
  have undrawn : g.drawn n = none := by
    rw [Option.eq_none_iff_forall_ne_some]
    intro id hd
    obtain ⟨t', ht', hp⟩ := S.filed.drawing hd
    obtain rfl := Option.some.inj (ht.symm.trans ht')
    exact hne hp
  have backed := S.tracked.backed ht
  have moves := Task.moves_of_advance hf
  rw [tells] at tracked ⊢
  obtain ⟨session, progress⟩ := t
  cases moves with
  | record | fail => exact absurd rfl hne
  | pass | hold | wait | skip | hear =>
    exact ⟨tracked, S.filed.after_set_task ht rfl undrawn (by simp [Task.shows, Progress.farewell]) rfl rfl,
      S.entered.after_set_task ht (by simp [Task.shows, Progress.farewell]) rfl rfl⟩
  | @enqueue id =>
    have mine : g.gate.filed n = some (id, Record.of session.request session.remote) :=
      Gate.filed_eq_some.mpr ⟨_, ht, rfl, rfl⟩
    have halone : ∀ m, g.gate.entry m ≠ some id := by
      intro m he
      obtain rfl := S.filed.eq_of_mem_saves (S.saved_of_entry he) (S.filed.saved mine)
      rw [Gate.entry, Gate.about, ht] at he
      simp [Progress.entry?] at he
    refine ⟨tracked, S.filed.after_set_task ht rfl undrawn ?_ rfl rfl,
      S.entered.after_enqueue (fun id w => backed id w) halone (Gate.about_set ht) ?_ fun p => Queue.mem_add⟩
    · simp [Task.shows, Queue.thrown, Progress.farewell]
    · simp [Task.shows, Queue.thrown, Progress.farewell]
  | @leave id o =>
    have mine : g.gate.entry n = some id := Gate.about_eq_some.mpr ⟨_, ht, rfl⟩
    refine ⟨tracked, S.filed.after_set_task ht rfl undrawn ?_ rfl rfl,
      S.entered.after_leave mine ?_ (Gate.about_set ht) ?_ fun p => Queue.mem_remove⟩
    · simp [Task.shows, Queue.thrown, Progress.farewell]
    · exact fun m he => S.filed.eq_of_mem_saves (S.saved_of_entry he) (S.saved_of_entry mine)
    · simp [Task.shows, Queue.thrown, Progress.farewell]
  | @clear id o =>
    have mine : g.gate.filed n = some (id, Record.of session.request session.remote) :=
      Gate.filed_eq_some.mpr ⟨_, ht, rfl, rfl⟩
    have hn : n < g.gate.tasks.length := (List.getElem?_eq_some_iff.mp ht).1
    refine ⟨tracked, S.filed.after_finish ?_ mine rfl rfl (Gate.about_set ht) ?_ ?_,
      S.entered.after_set_task ht ?_ rfl rfl⟩
    · simp [Task.shows, Progress.farewell]
    · rintro m (rfl | left)
      · exact ⟨_, o, List.getElem?_set_self hn, rfl⟩
      · exact Gate.over_set ht rfl left
    · rintro m id' hd
      refine List.getElem?_set_ne ?_
      rintro rfl
      simp [undrawn] at hd
    · simp [Task.shows, Progress.farewell]

/-- The client of a request goes away. -/
theorem after_cancel (S : Sound h g) (hx : g.excludes (.cancel n) = false) {gate : Gate}
    (hm : g.gate.cancel n = some gate) :
    Sound (h ++ g.gate.tells recordInLog (.cancel n)) { g with gate } := by
  have tells : g.gate.tells recordInLog (.cancel n) = _ := Gate.tells_eq (m := .cancel n) hm
  have tracked : Tracked (h ++ g.gate.tells recordInLog (.cancel n)) gate := by
    rw [tells]
    exact S.tracked.after_move (m := .cancel n) hm
  obtain ⟨t, ht, s, p, hf, rfl⟩ := Gate.moveTask_eq_some.mp hm
  rw [Gate.shows, Gate.farewells, Gate.farewell_set ht] at tells
  have undrawn : g.drawn n = none := by simpa [excludes] using hx
  have quits := Task.quits_of_cancel hf
  rw [tells] at tracked ⊢
  obtain ⟨session, progress⟩ := t
  cases quits with
  | early | unrecorded =>
    exact ⟨tracked, S.filed.after_set_task ht rfl undrawn (by simp [Progress.farewell]) rfl rfl,
      S.entered.after_set_task ht (by simp [Progress.farewell]) rfl rfl⟩
  | waiting =>
    exact ⟨tracked, S.filed.after_set_task ht rfl undrawn (by simp [Progress.farewell]) rfl rfl,
      S.entered.after_set_task ht (by simp [Progress.farewell]) (Queue.leave_pending _ _) rfl⟩

/-- A move that is not a request's: nobody's record is touched, and what is not pending any more has been
called for. -/
theorem after_operate (S : Sound h g) {m : Moderation.Move} {gate : Gate}
    (hm : g.gate.move? recordInLog m = some gate) (hfare : gate.farewells m = [])
    (htasks : gate.tasks = g.gate.tasks) (hlog : gate.state.log = g.gate.state.log)
    (hsaved : ∀ n id, .recorded n id ∉ g.gate.shows recordInLog m)
    (hqueued : ∀ n id w, .queued n id w ∉ g.gate.shows recordInLog m)
    (hsub : ∀ p ∈ gate.state.queue.pending, p ∈ g.gate.state.queue.pending)
    (hcalled : ∀ p ∈ g.gate.state.queue.pending,
      p ∈ gate.state.queue.pending ∨ History.Called (g.gate.shows recordInLog m) p.1 p.2) :
    Sound (h ++ g.gate.tells recordInLog m) { g with gate } := by
  have about : ∀ {α : Type} (f : Task → Option α), gate.about f = g.gate.about f := by
    intro α f
    funext n
    rw [Gate.about, Gate.about, htasks]
  have tells : g.gate.tells recordInLog m = g.gate.shows recordInLog m := by
    rw [Gate.tells_eq hm, hfare, List.append_nil]
  rw [tells]
  refine ⟨?_, ?_, ?_⟩
  · have tracked := S.tracked.after_move hm
    rwa [hfare, List.append_nil] at tracked
  · refine S.filed.append_of_unrecorded (fun n id => hsaved n (some id)) hlog rfl (about _) ?_ fun _ => by rw [htasks]
    rintro n ⟨t, o, ht, hp⟩
    exact ⟨t, o, by rw [htasks, ht], hp⟩
  · exact S.entered.append_of_unqueued hqueued (about _) hsub hcalled

/-- Every move keeps queue and log in order. -/
theorem after_move (S : Sound h g) {m : LoggedGate.Move} (hm : g.move? m = some after) :
    Sound (h ++ g.shows m) after := by
  cases m with
  | draw n =>
    rw [shows, List.append_nil]
    exact S.after_draw hm
  | keep n => exact S.after_keep hm
  | other m =>
    obtain ⟨hx, gate, hgate, rfl⟩ := other_eq_some.mp hm
    rw [shows]
    cases m with
    | submit s =>
      obtain rfl := Option.some.inj hgate
      rw [Gate.tells_eq hgate]
      refine ⟨S.tracked.after_move hgate, S.filed.append_of_unrecorded ?_ rfl rfl (Gate.about_submit rfl) ?_ ?_,
        S.entered.append_of_unqueued ?_ (Gate.about_submit rfl) (fun _ hp => hp) fun _ hp => .inl hp⟩
      · simp [Gate.shows, Gate.farewells]
      · rintro n ⟨t, o, ht, hp⟩
        refine ⟨t, o, ?_, hp⟩
        rw [Gate.submit, List.getElem?_append_left (List.getElem?_eq_some_iff.mp ht).1, ht]
      · rintro n id hd
        obtain ⟨t, ht, -⟩ := S.filed.drawing hd
        exact List.getElem?_append_left (List.getElem?_eq_some_iff.mp ht).1
      · simp [Gate.shows, Gate.farewells]
    | advance n => exact S.after_advance hx hgate
    | cancel n => exact S.after_cancel hx hgate
    | approve id =>
      obtain rfl := Option.some.inj hgate
      refine S.after_operate hgate rfl (Gate.take_tasks _ _) (Gate.take_log _ _) (by simp [Gate.shows])
        (by simp [Gate.shows]) (fun p hp => (Gate.mem_take.mp hp).1) ?_
      intro p hp
      by_cases hid : p.1 = id
      · have hw := S.find?_of_mem hp
        exact .inr (.inl ⟨⟨p.2, some id⟩, rfl, by simp [Gate.shows, ← hid, hw]⟩)
      · exact .inl (Gate.mem_take.mpr ⟨hp, hid⟩)
    | drop id =>
      obtain rfl := Option.some.inj hgate
      refine S.after_operate hgate rfl rfl rfl (by simp [Gate.shows, Queue.thrown])
        (by simp [Gate.shows, Queue.thrown]) (fun p => Queue.mem_of_mem_remove) ?_
      intro p hp
      by_cases hid : p.1 = id
      · have hw := S.find?_of_mem hp
        exact .inr (.inr (by simp [Gate.shows, Queue.thrown, ← hid, hw]))
      · exact .inl (Queue.mem_remove.mpr ⟨hp, hid⟩)
    | flush =>
      obtain rfl := Option.some.inj hgate
      refine S.after_operate hgate rfl rfl rfl (by simp [Gate.shows]) (by simp [Gate.shows])
        (by simp [Gate.takeAll]) ?_
      intro p hp
      exact .inr (.inl ⟨⟨p.2, none⟩, rfl, List.mem_map.mpr ⟨p, hp, rfl⟩⟩)
    | flushOwed =>
      obtain ⟨-, rfl⟩ := Gate.flushOwed_eq_some.mp hgate
      refine S.after_operate hgate rfl rfl rfl (by simp [Gate.shows]) (by simp [Gate.shows])
        (by simp [Gate.takeAll]) ?_
      intro p hp
      exact .inr (.inl ⟨⟨p.2, none⟩, rfl, List.mem_map.mpr ⟨p, hp, rfl⟩⟩)
    | deliver k =>
      obtain ⟨s, hk, hm⟩ := Option.bind_eq_some_iff.mp hgate
      obtain rfl := Option.some.inj hm
      exact S.after_operate hgate rfl rfl rfl (by simp [Gate.shows]) (by simp [Gate.shows])
        (by simp) (by simp +contextual)
    | turnOn =>
      obtain rfl := Option.some.inj hgate
      exact S.after_operate hgate rfl rfl rfl (by simp [Gate.shows]) (by simp [Gate.shows])
        (fun _ hp => hp) fun _ hp => .inl hp
    | turnOff =>
      obtain rfl := Option.some.inj hgate
      exact S.after_operate hgate rfl rfl rfl (by simp [Gate.shows]) (by simp [Gate.shows])
        (fun _ hp => hp) fun _ hp => .inl hp

end LoggedGate.Sound

/-- In every run, queue and log are in order. -/
theorem LoggedGate.sound_of_run {on : Bool} {h : History} {g : LoggedGate}
    (r : system.Run (start on) h g) : Sound h g := by
  induction r with
  | start => exact .at_start on
  | move m _ hm ih => exact ih.after_move hm

/-! ## In step -/

namespace LoggedGate.Sound

variable {h : History} {g : LoggedGate} {n id w : Nat}

theorem leavings_eq_nil_iff (S : Sound h g) {t : Task} (ht : g.gate.tasks[n]? = some t) :
    h.leavings n = [] ↔ t.progress.outcome? = none := by
  rw [S.tracked.leavings, ht, Option.elim_some, Task.leaving]
  cases t.progress.outcome? <;> simp

/-- Something is filed of a request while it has been recorded and has not left. -/
theorem filed_iff (S : Sound h g) {r : Record} : g.gate.filed n = some (id, r) ↔
    ∃ t, g.gate.tasks[n]? = some t ∧ .recorded n (some id) ∈ h ∧ h.leavings n = [] ∧ r = t.record := by
  constructor
  · intro hf
    obtain ⟨t, ht, hid, hr⟩ := Gate.filed_eq_some.mp hf
    refine ⟨t, ht, History.mem_saves.mp (S.filed.saved hf), (S.leavings_eq_nil_iff ht).mpr ?_, hr⟩
    cases hp : t.progress with
    | done o => simp [hp, Progress.id?] at hid
    | _ => rfl
  · rintro ⟨t, ht, hs, hl, rfl⟩
    rcases S.filed.going (History.mem_saves.mpr hs) with ⟨r, hf⟩ | ⟨t', o, ht', hp⟩
    · obtain ⟨t', ht', -, rfl⟩ := Gate.filed_eq_some.mp hf
      obtain rfl := Option.some.inj (ht.symm.trans ht')
      exact hf
    · obtain rfl := Option.some.inj (ht.symm.trans ht')
      have := (S.leavings_eq_nil_iff ht).mp hl
      simp [hp, Progress.outcome?] at this

theorem get?_iff (S : Sound h g) {r : Record} :
    g.gate.state.log.get? id = some r ↔ ∃ n, g.gate.filed n = some (id, r) := by
  rw [Log.get?_eq_some_iff S.filed.keys, S.filed.records]

/-- Who has a pending entry. -/
theorem exists_owner (S : Sound h g) (hf : g.gate.state.queue.find? id = some w) :
    ∃ n t, g.gate.tasks[n]? = some t ∧ t.progress.entry? = some id ∧ .queued n id w ∈ h ∧
      g.gate.filed n = some (id, t.record) := by
  obtain ⟨n, he, hq⟩ := S.entered.owned (S.tracked.accounts.orderly.find?_eq_some_iff.mp hf)
  obtain ⟨r, hr⟩ := Gate.filed_of_entry he
  obtain ⟨t, ht, hp⟩ := Gate.about_eq_some.mp he
  obtain ⟨t', ht', -, rfl⟩ := Gate.filed_eq_some.mp hr
  obtain rfl := Option.some.inj (ht.symm.trans ht')
  exact ⟨n, t, ht, hp, hq, hr⟩

end LoggedGate.Sound

/-- What the operator may rely on who looks into the queue and the log. -/
structure History.InStep (h : History) (g : Gate) : Prop where
  /-- No id is given to two requests, or twice. -/
  distinct : (h.saves.map Prod.snd).Nodup
  /-- The log has one record for each request that has been recorded and has not left: its own. -/
  records : (g.state.log.records.map Prod.fst).Nodup ∧ ∀ {id r}, g.state.log.get? id = some r ↔
    ∃ n t, g.tasks[n]? = some t ∧ .recorded n (some id) ∈ h ∧ h.leavings n = [] ∧ r = t.record
  /-- Who is pending has its record in the log. -/
  pending : ∀ {id w}, g.state.queue.find? id = some w →
    ∃ n t, g.tasks[n]? = some t ∧ t.progress.entry? = some id ∧ .queued n id w ∈ h ∧
      g.state.log.get? id = some t.record
  /-- A request that has left has left nothing behind, whatever has become of it. -/
  finished : ∀ {n id}, .recorded n (some id) ∈ h → h.leavings n ≠ [] →
    g.state.queue.find? id = none ∧ g.state.log.get? id = none
  /-- A request is pending until the operator calls for it, or until it takes itself out. -/
  own : ∀ {n id w}, .queued n id w ∈ h → g.state.queue.find? id = some w ∨ h.Called id w ∨
    ∃ t, g.tasks[n]? = some t ∧ t.progress.entry? = none
  /-- When all that have been recorded have left, nothing is there any more. -/
  empty : (∀ n id, .recorded n (some id) ∈ h → h.leavings n ≠ []) →
    g.state.queue.pending = [] ∧ g.state.log.records = []

namespace LoggedGate

variable {on : Bool} {h : History} {g : LoggedGate}

/-- Queue and log stay in step, whoever moves. -/
theorem queue_and_log_in_step (r : system.Run (start on) h g) : h.InStep g.gate := by
  have S : Sound h g := sound_of_run r
  have orderly := S.tracked.accounts.orderly
  constructor
  case distinct => exact S.filed.distinct
  case records =>
    refine ⟨S.filed.keys, ?_⟩
    intro id r
    simp only [S.get?_iff, S.filed_iff]
  case pending =>
    intro id w hf
    obtain ⟨n, t, ht, hp, hq, hr⟩ := S.exists_owner hf
    exact ⟨n, t, ht, hp, hq, S.get?_iff.mpr ⟨n, hr⟩⟩
  case finished =>
    intro n id hs hl
    -- whatever is there under the id is this request's, which would not have left then
    have nobody : ∀ {m r}, g.gate.filed m ≠ some (id, r) := by
      intro m r hf
      obtain ⟨t, -, hs', hl', -⟩ := S.filed_iff.mp hf
      obtain rfl := S.filed.eq_of_mem_saves (History.mem_saves.mpr hs) (History.mem_saves.mpr hs')
      exact hl hl'
    rw [Option.eq_none_iff_forall_ne_some, Option.eq_none_iff_forall_ne_some]
    constructor
    · intro w hf
      obtain ⟨m, t, -, -, -, hr⟩ := S.exists_owner hf
      exact nobody hr
    · intro r hr
      obtain ⟨m, hf⟩ := S.get?_iff.mp hr
      exact nobody hf
  case own =>
    intro n id w hq
    have hn : n < g.gate.tasks.length := S.tracked.numbered hq
    cases he : g.gate.entry n with
    | none =>
      refine .inr (.inr ⟨_, List.getElem?_eq_getElem hn, ?_⟩)
      simpa [Gate.entry, Gate.about, hn] using he
    | some id' =>
      obtain ⟨w', hq'⟩ := S.entered.entered he
      obtain rfl := S.tracked.single hq hq'
      obtain ⟨-, rfl⟩ := S.tracked.accounts.owner hq hq'
      exact (S.entered.stays he hq).imp orderly.find?_eq_some_iff.mpr .inl
  case empty =>
    intro hall
    have nobody : ∀ {n id r}, g.gate.filed n ≠ some (id, r) := by
      intro n id r hf
      obtain ⟨t, -, hs, hl, -⟩ := S.filed_iff.mp hf
      exact hall n id hs hl
    simp only [List.eq_nil_iff_forall_not_mem]
    constructor
    · rintro p hp
      obtain ⟨n, t, -, -, -, hr⟩ := S.exists_owner (S.find?_of_mem hp)
      exact nobody hr
    · rintro ⟨id, r⟩ hr
      obtain ⟨n, hf⟩ := S.filed.records.mp hr
      exact nobody hf

/-- Two visits at a time. The one that has come first gets the second id, and is dropped under it. -/
def crossedVisits : History :=
  [.came 0 visit, .came 1 visit, .looked 0 true, .looked 1 true, .recorded 0 (some 2),
    .recorded 1 (some 1), .queued 0 2 0, .queued 1 1 1, .looked 0 true, .looked 1 true,
    .discarded ⟨0, some 2⟩, .left 0 visit .refused]

theorem queue_and_log_in_step_crossed : ∃ g, system.Run (start true) crossedVisits g ∧
    g.gate.state.queue.ids = [1] ∧ g.gate.state.log.records.map Prod.fst = [1] ∧
    crossedVisits.InStep g.gate := by
  have moves : system.replay (start true)
      [.other (.submit visit), .other (.submit visit), .other (.advance 0), .other (.advance 1),
        .draw 1, .draw 0, .keep 0, .keep 1, .other (.advance 0), .other (.advance 1),
        .other (.advance 0), .other (.advance 1), .other (.drop 2), .other (.advance 0),
        .other (.advance 0), .other (.advance 0)] = some (crossedVisits, _) := rfl
  have run := StepSystem.Run.of_replay moves
  exact ⟨_, run, rfl, rfl, queue_and_log_in_step run⟩

/-! ## Records kept at once -/

/-- A request is recorded at once. -/
theorem move?_recording {gate : Gate} {n : Nat} {t : Task} (ht : gate.tasks[n]? = some t)
    (hp : t.progress = .recording) :
    gate.move? recordInLog (.advance n) = some { gate with
      state := { gate.state with log := (gate.state.log.save t.record).2 }
      tasks := gate.tasks.set n { t with progress := .recorded gate.state.log.nextId } } := by
  simp [Gate.move?, Gate.advance, Gate.moveTask, ht, Task.advance, hp, recordInLog, Store.recorder,
    Log.store, Task.record, Log.save]

theorem tells_recording {gate : Gate} {n : Nat} {t : Task} (ht : gate.tasks[n]? = some t)
    (hp : t.progress = .recording) :
    gate.tells recordInLog (.advance n) = [.recorded n (some gate.state.log.nextId)] := by
  rw [Gate.tells_eq (move?_recording ht hp), Gate.shows, Gate.farewells, Gate.farewell_set ht, ht,
    Option.elim_some, Task.shows, hp]
  rfl

/-- The same in two moves, between which nobody comes. -/
theorem replay_recording {gate : Gate} {n : Nat} {t : Task} (ht : gate.tasks[n]? = some t)
    (hp : t.progress = .recording) :
    system.replay { gate } [.draw n, .keep n] = some ([.recorded n (some gate.state.log.nextId)],
      { gate := { gate with
          state := { gate.state with log := (gate.state.log.save t.record).2 }
          tasks := gate.tasks.set n { t with progress := .recorded gate.state.log.nextId } } }) := by
  have draws : draw { gate } n = some _ := draw_eq_some.mpr ⟨t, ht, hp, rfl, rfl⟩
  have keeps := Gate.advance_storeUnder (g := { gate with
    state := { gate.state with log := gate.state.log.draw.2 } }) ht hp gate.state.log.nextId
  have tells := Gate.tells_storeUnder (g := { gate with
    state := { gate.state with log := gate.state.log.draw.2 } }) ht hp gate.state.log.nextId
  have saved : gate.state.log.draw.2.put gate.state.log.nextId t.record =
      (gate.state.log.save t.record).2 := rfl
  have undrawn : (fun m => if m = n then none else if m = n then some gate.state.log.nextId else none) =
      fun _ => none := by
    funext m
    split <;> rfl
  simp only [StepSystem.replay, system, move?, shows, draws, keep, setDrawn, ↓reduceIte, Option.elim_some,
    Option.bind_eq_bind, Option.bind_some, keeps, tells, saved, undrawn, List.append_nil, List.nil_append]

/-- What is excluded while nobody draws is to record a request at once. -/
theorem recording_of_excludes {gate : Gate} {m : Moderation.Move} (hx : excludes { gate } m = true) :
    ∃ n t, m = .advance n ∧ gate.tasks[n]? = some t ∧ t.progress = .recording := by
  cases m with
  | advance n =>
    obtain ⟨t, ht, hp⟩ := (Option.any_eq_true _ _).mp hx
    exact ⟨n, t, rfl, ht, by simpa using hp⟩
  | cancel n => simp [excludes] at hx
  | _ => simp [excludes] at hx

/-- Where nobody comes between, drawing an id and keeping a record under it is to record at once. So every
run of the gate with the log as its store is a run of the gate over the log. -/
theorem run_of_gate {gate : Gate} (r : Gate.Run (· = Log.store) { enabled := on } h gate) :
    system.Run (start on) h { gate } := by
  induction r with
  | start => exact .start
  | @move h gate after keep m _ hkeep hm ih =>
    subst hkeep
    have tells := Gate.tells_eq hm
    change gate.tells recordInLog m = _ at tells
    rw [← tells]
    cases hx : excludes { gate } m with
    | false =>
      have other : system.move? { gate } (.other m) = some { gate := after } :=
        other_eq_some.mpr ⟨hx, after, hm, rfl⟩
      exact ih.move (.other m) other
    | true =>
      obtain ⟨n, t, rfl, ht, hp⟩ := recording_of_excludes hx
      obtain rfl := Option.some.inj ((move?_recording ht hp).symm.trans hm)
      rw [tells_recording ht hp]
      exact ih.replay (replay_recording ht hp)

end LoggedGate
end ForwardProxy.Moderation
