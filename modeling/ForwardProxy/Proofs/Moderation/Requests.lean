import ForwardProxy.Proofs.Moderation.Moves
import ForwardProxy.Proofs.Moderation.Signals

/-!
# Requests and their history

`Tracked` says that the history tells of every request what it has done: that it has come, that it
has at most one signal, and why it leaves the gate as it does. Every move keeps this. A move of the
operator touches no request, and a move of a request touches no other one.

* `Progress.Backed`: the history bears out how far a request has come. It is the part of the invariant that is about
  one request, and `Progress.Backed.mono` is all that is needed of the others when one of them moves.
* `append_of_tasks_eq`: a move that is not a request's.
* `after_submit`: a request comes in.
* `after_set_task`: a request moves, whatever it does to its signal; `after_set_task_of_plain` is for the moves that
  do nothing to it.
* `after_advance`, `after_cancel`, and from these `after_move`. The cases are those of `Task.Moves` and `Task.Quits`.

`Reason` is weaker than the grounds on which a request may leave: it is what a move can see at the moment of leaving.
That the rest is true as well follows from the accounts of signals and needs no induction, so it is kept out of the
invariant.

`leavings` is an equation for every number, also for one that no request has. With it, leaving twice is impossible
because a request that is done makes no move.
-/

namespace ForwardProxy.Moderation

/-! ## Parts of histories -/

namespace History

variable {h es : History}

@[simp] theorem leavings_nil (n : Nat) : leavings [] n = [] := rfl

theorem leavings_append (n : Nat) : (h ++ es).leavings n = h.leavings n ++ es.leavings n :=
  List.filterMap_append

/-- Nobody leaves by events none of which is a leave. -/
theorem leavings_eq_nil {n : Nat} (hes : ∀ m s o, .left m s o ∉ es) : es.leavings n = [] := by
  rw [leavings, List.filterMap_eq_nil_iff]
  intro e he
  cases e with
  | left m s o => exact absurd he (hes m s o)
  | _ => rfl

theorem leavings_farewell (n m : Nat) (s : Proxy.Session) (p : Progress) :
    (p.farewell n s).leavings m = if m = n then p.outcome?.toList.map (s, ·) else [] := by
  unfold Progress.farewell
  cases p.outcome? with
  | none => simp
  | some o =>
    by_cases hm : m = n
    · simp [leavings, hm]
    · simp [leavings, hm, Ne.symm hm]

/-- What the history says of a request that leaves the gate with an outcome. -/
def Reason (h : History) (n : Nat) : Outcome → Prop
  | .passed => h.Cleared n
  | .refused => ∃ id s, .queued n id s.waiter ∈ h ∧ .discarded s ∈ h
  | .unrecorded => .recorded n none ∈ h
  | .cancelled => .gone n ∈ h

/-- Reasons stay. -/
theorem Reason.mono {h h' : History} (hsub : h ⊆ h') {n : Nat} {o : Outcome}
    (hr : h.Reason n o) : h'.Reason n o := by
  cases o with
  | passed =>
    rcases hr with hr | ⟨id, s, hq, hs, hsent⟩
    · exact .inl (hsub hr)
    · exact .inr ⟨id, s, hsub hq, hs, hsub hsent⟩
  | refused =>
    obtain ⟨id, s, hq, hd⟩ := hr
    exact ⟨id, s, hsub hq, hsub hd⟩
  | unrecorded => exact hsub hr
  | cancelled => exact hsub hr

end History

/-! ## Requests -/

/-- The history bears out the progress of request `n`. -/
def Progress.Backed (h : History) (q : Queue) (n : Nat) : Progress → Prop
  | .arrived | .recording | .recorded _ => ∀ id w, .queued n id w ∉ h
  | .queued id w | .waiting id w => .queued n id w ∈ h ∧ q.waiter? w ≠ some .left
  | .leaving _ o | .clearing _ o | .done o => h.Reason n o

/-- Progress stays borne out while nobody puts the request into the queue and its waiter does not go
away. -/
theorem Progress.Backed.mono {h h' : History} {q q' : Queue} {n : Nat} {p : Progress}
    (hp : p.Backed h q n) (hsub : h ⊆ h')
    (hqueued : ∀ {id w}, .queued n id w ∈ h' → .queued n id w ∈ h)
    (hleft : ∀ {id w}, .queued n id w ∈ h → q'.waiter? w = some .left → q.waiter? w = some .left) :
    p.Backed h' q' n := by
  cases p with
  | arrived | recording | recorded _ => exact fun id w h' => hp id w (hqueued h')
  | queued id w | waiting id w =>
    obtain ⟨hq, hne⟩ := hp
    exact ⟨hsub hq, fun hl => hne (hleft hq hl)⟩
  | leaving _ o | clearing _ o | done o => exact History.Reason.mono hsub hp

/-- The event is about one request that does not come or leave, and about no signal. -/
def Event.isPlain : Event → Bool
  | looked _ _ | recorded _ _ | gone _ => true
  | _ => false

/-- How a request that has left the gate has left it. -/
def Task.leaving (t : Task) : List (Proxy.Session × Outcome) :=
  t.progress.outcome?.toList.map (t.session, ·)

/-- The history tells of every request at the gate what it has done. -/
structure Tracked (h : History) (g : Gate) : Prop where
  accounts : Accounted h g.state.queue g.underway
  came : ∀ {n s}, .came n s ∈ h → ∃ t : Task, g.tasks[n]? = some t ∧ t.session = s
  numbered : ∀ {n id w}, .queued n id w ∈ h → n < g.tasks.length
  single : ∀ {n id w id' w'}, .queued n id w ∈ h → .queued n id' w' ∈ h → w = w'
  backed : ∀ {n} {t : Task}, g.tasks[n]? = some t → t.progress.Backed h g.state.queue n
  leavings : ∀ n, h.leavings n = (g.tasks[n]?).elim [] Task.leaving

namespace Tracked

variable {h es : History} {g after : Gate}

theorem at_start {s : State} (hs : s.queue = {}) : Tracked [] { state := s } where
  accounts := by rw [hs]; exact .at_start
  came := by simp
  numbered := by simp
  single := by simp
  backed := by simp
  leavings := by simp

/-- A move that is not a request's: requests stay as they are. -/
theorem append_of_tasks_eq (T : Tracked h g)
    (accounts : Accounted (h ++ es) after.state.queue after.underway)
    (htasks : after.tasks = g.tasks) (hcame : ∀ n s, .came n s ∉ es)
    (hqueued : ∀ n id w, .queued n id w ∉ es) (hleft : ∀ n s o, .left n s o ∉ es)
    (hstay : ∀ {w}, after.state.queue.waiter? w = some .left →
      g.state.queue.waiter? w = some .left) :
    Tracked (h ++ es) after := by
  have queued : ∀ n id w, .queued n id w ∈ h ++ es ↔ .queued n id w ∈ h := by simp [hqueued]
  refine ⟨accounts, ?_, ?_, ?_, ?_, ?_⟩
  · intro n s hc
    rw [htasks]
    exact T.came (by simpa [hcame] using hc)
  · intro n id w hq
    rw [htasks]
    exact T.numbered ((queued n id w).mp hq)
  · intro n id w id' w' hq hq'
    exact T.single ((queued ..).mp hq) ((queued ..).mp hq')
  · intro n t ht
    rw [htasks] at ht
    exact (T.backed ht).mono (List.subset_append_left h es) (queued ..).mp fun _ => hstay
  · intro n
    rw [History.leavings_append, History.leavings_eq_nil hleft, List.append_nil, htasks]
    exact T.leavings n

/-- A request comes in. -/
theorem after_submit (T : Tracked h g) (s : Proxy.Session) :
    Tracked (h ++ [.came g.tasks.length s]) (g.submit s) := by
  have accounts : Accounted (h ++ [.came g.tasks.length s]) g.state.queue g.underway :=
    T.accounts.append_of_quiet ⟨by simp, by simp, by simp, by simp⟩ rfl rfl fun hx _ => hx
  have queued : ∀ {n id w}, .queued n id w ∈ h ++ [.came g.tasks.length s] →
      .queued n id w ∈ h := by simp
  have tasks : ∀ n, (g.submit s).tasks[n]? =
      if n = g.tasks.length then some ⟨s, .arrived⟩ else g.tasks[n]? := by
    intro n
    simp only [Gate.submit, List.getElem?_append, List.getElem?_singleton]
    grind
  refine ⟨accounts, ?_, ?_, ?_, ?_, ?_⟩
  · intro n s' hc
    rw [tasks]
    rcases List.mem_append.mp hc with hc | hc
    · obtain ⟨t, ht, hs⟩ := T.came hc
      have hn : n < g.tasks.length := (List.getElem?_eq_some_iff.mp ht).1
      exact ⟨t, by rw [if_neg (Nat.ne_of_lt hn), ht], hs⟩
    · obtain ⟨rfl, rfl⟩ : n = g.tasks.length ∧ s' = s := by simpa using hc
      exact ⟨_, if_pos rfl, rfl⟩
  · intro n id w hq
    have hl : (g.submit s).tasks.length = g.tasks.length + 1 := by simp [Gate.submit]
    have := T.numbered (queued hq)
    omega
  · intro n id w id' w' hq hq'
    exact T.single (queued hq) (queued hq')
  · intro n t ht
    rw [tasks] at ht
    split at ht
    · rename_i hn
      obtain rfl := Option.some.inj ht
      intro id w hq
      exact absurd (T.numbered (queued hq)) (by omega)
    · exact (T.backed ht).mono (List.subset_append_left _ _) queued fun _ hl => hl
  · intro n
    have nobody : History.leavings [.came g.tasks.length s] n = [] := rfl
    rw [History.leavings_append, nobody, List.append_nil, tasks, T.leavings n]
    split
    · rename_i hn
      rw [hn, List.getElem?_eq_none (Nat.le_refl _)]
      rfl
    · rfl

/-- Request `n` moves: its new progress must be borne out, and no other request loses its waiter. -/
theorem after_set_task (T : Tracked h g) {n : Nat} {t : Task} {s : State} {p : Progress}
    (ht : g.tasks[n]? = some t) (hnot : t.progress.outcome? = none)
    (accounts : Accounted (h ++ es) s.queue g.underway)
    (hcame : ∀ m s, .came m s ∉ es) (hleft : ∀ m s o, .left m s o ∉ es)
    (hqueued : ∀ {m id w}, .queued m id w ∈ es → m = n)
    (hsingle : ∀ {id w id' w'}, .queued n id w ∈ h ++ es → .queued n id' w' ∈ h ++ es → w = w')
    (hstay : ∀ {m id w}, m ≠ n → .queued m id w ∈ h → s.queue.waiter? w = some .left →
      g.state.queue.waiter? w = some .left)
    (hp : p.Backed (h ++ es) s.queue n) :
    Tracked (h ++ (es ++ p.farewell n t.session))
      { g with state := s, tasks := g.tasks.set n { t with progress := p } } := by
  have hn : n < g.tasks.length := (List.getElem?_eq_some_iff.mp ht).1
  have quiet : (p.farewell n t.session).Quiet :=
    ⟨by simp [Progress.farewell], by simp [Progress.farewell], by simp [Progress.farewell],
      by simp [Progress.farewell]⟩
  have queued : ∀ {m id w}, .queued m id w ∈ h ++ (es ++ p.farewell n t.session) →
      .queued m id w ∈ h ++ es := by
    intro m id w hq
    simpa [quiet.queued] using hq
  have mine : (g.tasks.set n { t with progress := p })[n]? = some { t with progress := p } :=
    List.getElem?_set_self hn
  have theirs : ∀ {m}, m ≠ n → (g.tasks.set n { t with progress := p })[m]? = g.tasks[m]? :=
    fun hm => List.getElem?_set_ne (Ne.symm hm)
  refine ⟨?_, ?_, ?_, ?_, ?_, ?_⟩
  · rw [← List.append_assoc]
    exact accounts.append_of_quiet quiet rfl rfl fun hx _ => hx
  · intro m s' hc
    have hold : .came m s' ∈ h := by simpa [hcame, Progress.farewell] using hc
    obtain ⟨t', ht', hs⟩ := T.came hold
    by_cases hm : m = n
    · subst hm
      obtain rfl := Option.some.inj (ht.symm.trans ht')
      exact ⟨_, mine, hs⟩
    · exact ⟨t', (theirs hm).trans ht', hs⟩
  · intro m id w hq
    rw [List.length_set]
    rcases List.mem_append.mp (queued hq) with hq | hq
    · exact T.numbered hq
    · rw [hqueued hq]
      exact hn
  · intro m id w id' w' hq hq'
    by_cases hm : m = n
    · subst hm
      exact hsingle (queued hq) (queued hq')
    · have old : ∀ {id w}, .queued m id w ∈ h ++ es → .queued m id w ∈ h := fun hq =>
        (List.mem_append.mp hq).resolve_right fun he => hm (hqueued he)
      exact T.single (old (queued hq)) (old (queued hq'))
  · intro m t' ht'
    by_cases hm : m = n
    · subst hm
      obtain rfl := Option.some.inj (mine.symm.trans ht')
      rw [← List.append_assoc]
      refine hp.mono (List.subset_append_left _ _) ?_ fun _ hl => hl
      intro id w hq
      exact queued (List.append_assoc .. ▸ hq)
    · refine (T.backed ((theirs hm).symm.trans ht')).mono (List.subset_append_left _ _) ?_
        (hstay hm)
      intro id w hq
      exact (List.mem_append.mp (queued hq)).resolve_right fun he => hm (hqueued he)
  · intro m
    rw [History.leavings_append, History.leavings_append, History.leavings_eq_nil hleft,
      History.leavings_farewell, T.leavings m, List.nil_append]
    by_cases hm : m = n
    · subst hm
      rw [ht, mine, if_pos rfl]
      simp [Task.leaving, hnot]
    · rw [theirs hm, if_neg hm, List.append_nil]

/-- Request `n` moves, and nothing happens to any signal. -/
theorem after_set_task_of_plain (T : Tracked h g) {n : Nat} {t : Task} {s : State} {p : Progress}
    (ht : g.tasks[n]? = some t) (hnot : t.progress.outcome? = none)
    (hes : ∀ e ∈ es, e.isPlain = true) (hq : s.queue = g.state.queue)
    (hp : p.Backed (h ++ es) s.queue n) :
    Tracked (h ++ (es ++ p.farewell n t.session))
      { g with state := s, tasks := g.tasks.set n { t with progress := p } } := by
  have quiet : History.Quiet es :=
    ⟨fun _ _ _ he => Bool.false_ne_true (hes _ he), fun _ he => Bool.false_ne_true (hes _ he),
      fun _ _ he => Bool.false_ne_true (hes _ he), fun _ he => Bool.false_ne_true (hes _ he)⟩
  have old : ∀ {id w}, .queued n id w ∈ h ++ es → .queued n id w ∈ h := by simp [quiet.queued]
  refine T.after_set_task ht hnot ?_ (fun _ _ he => Bool.false_ne_true (hes _ he))
    (fun _ _ _ he => Bool.false_ne_true (hes _ he)) (fun he => absurd he (quiet.queued _ _ _)) ?_ ?_ hp
  · exact T.accounts.append_of_quiet quiet (by rw [hq]) (by rw [hq]) fun hx _ => by rwa [hq] at hx
  · exact fun h1 h2 => T.single (old h1) (old h2)
  · exact fun _ _ hl => by rwa [hq] at hl

/-! ## Moves -/

/-- What a request that waits is told is what has been done with its signal. -/
theorem reason_of_told (T : Tracked h g) {n id w : Nat} {x : Waiter} {o : Outcome}
    (hq : .queued n id w ∈ h) (hne : g.state.queue.waiter? w ≠ some .left)
    (hx : g.state.queue.waiter? w = some x) (ho : x.outcome? = some o) : h.Reason n o := by
  cases x with
  | waiting => simp [Waiter.outcome?] at ho
  | released =>
    obtain rfl : .passed = o := by simpa [Waiter.outcome?] using ho
    obtain ⟨s, rfl, sent⟩ := T.accounts.released hx
    obtain ⟨m, id', hq', hnamed⟩ := T.accounts.taken_queued (T.accounts.sent_taken sent)
    obtain ⟨-, rfl⟩ := T.accounts.owner hq hq'
    exact .inr ⟨id, s, hq, hnamed, sent⟩
  | dropped =>
    obtain rfl : .refused = o := by simpa [Waiter.outcome?] using ho
    obtain ⟨s, rfl, discarded⟩ := T.accounts.dropped hx
    exact ⟨id, s, hq, discarded⟩
  | left => exact absurd hx hne

/-- A request makes its next move. -/
theorem after_advance (T : Tracked h g) {keep : Store} {n : Nat} {t : Task} {s : State} {p : Progress}
    (ht : g.tasks[n]? = some t) (hm : t.advance keep.recorder g.state = some (s, p)) :
    Tracked (h ++ (t.shows keep.recorder g.state n ++ p.farewell n t.session))
      { g with state := s, tasks := g.tasks.set n { t with progress := p } } := by
  have backed := T.backed ht
  have moves := Task.moves_of_advance hm
  obtain ⟨session, progress⟩ := t
  cases moves with
  | pass hoff =>
    change Tracked (h ++ ([.looked n g.state.enabled] ++ _)) _
    exact T.after_set_task_of_plain ht rfl (by simp [Event.isPlain]) rfl
      (.inl (by simp [hoff]))
  | hold =>
    change Tracked (h ++ ([.looked n g.state.enabled] ++ _)) _
    refine T.after_set_task_of_plain ht rfl (by simp [Event.isPlain]) rfl ?_
    intro id w
    simpa using backed id w
  | record hk =>
    have shows : Task.shows keep.recorder g.state n ⟨session, .recording⟩ = [.recorded n _] := rfl
    rw [shows]
    refine T.after_set_task_of_plain ht rfl (by simp [Event.isPlain]) rfl ?_
    intro id w
    simpa using backed id w
  | fail hk =>
    have shows : Task.shows keep.recorder g.state n ⟨session, .recording⟩ = [.recorded n none] := by
      simp [Task.shows, Store.recorder, hk]
    rw [shows]
    refine T.after_set_task_of_plain ht rfl (by simp [Event.isPlain]) rfl ?_
    simp [Progress.Backed, History.Reason]
  | @enqueue id =>
    change Tracked (h ++ ((g.state.queue.thrown id none ++
      [.queued n id (g.state.queue.add id).1]) ++ _)) _
    have new : ∀ {m id' w}, .queued m id' w ∈ g.state.queue.thrown id none ++
        [.queued n id (g.state.queue.add id).1] → m = n ∧ w = (g.state.queue.add id).1 := by
      intro m id' w he
      have : m = n ∧ id' = id ∧ w = (g.state.queue.add id).1 := by simpa [Queue.thrown] using he
      exact ⟨this.1, this.2.2⟩
    refine T.after_set_task ht rfl (T.accounts.after_add id n) (by simp [Queue.thrown])
      (by simp [Queue.thrown]) (fun he => (new he).1) ?_ (fun _ _ hl => Queue.left_of_add hl)
      ⟨by simp, ?_⟩
    · intro id1 w id2 w' h1 h2
      have h1 := (List.mem_append.mp h1).resolve_left (backed _ _)
      have h2 := (List.mem_append.mp h2).resolve_left (backed _ _)
      rw [(new h1).2, (new h2).2]
    · rw [Queue.add, Queue.waiter?_enqueue]
      simp [Queue.enqueue]
  | wait =>
    change Tracked (h ++ ([.looked n g.state.enabled] ++ _)) _
    exact T.after_set_task_of_plain ht rfl (by simp [Event.isPlain]) rfl
      ⟨List.mem_append_left _ backed.1, backed.2⟩
  | skip hoff =>
    change Tracked (h ++ ([.looked n g.state.enabled] ++ _)) _
    exact T.after_set_task_of_plain ht rfl (by simp [Event.isPlain]) rfl
      (.inl (by simp [hoff]))
  | @hear id w x o hx ho =>
    obtain ⟨hq, hne⟩ := backed
    change Tracked (h ++ ([] ++ _)) _
    refine T.after_set_task_of_plain ht rfl (by simp [Event.isPlain]) rfl ?_
    exact History.Reason.mono (List.subset_append_left _ _) (T.reason_of_told hq hne hx ho)
  | @leave id o =>
    change Tracked (h ++ (g.state.queue.thrown id none ++ _)) _
    have hqueued : ∀ m id' w, .queued m id' w ∉ g.state.queue.thrown id none := by
      simp [Queue.thrown]
    refine T.after_set_task ht rfl (T.accounts.after_remove id none) (by simp [Queue.thrown])
      (by simp [Queue.thrown]) (fun he => absurd he (hqueued _ _ _)) ?_
      (fun _ _ hl => Queue.left_of_remove hl)
      (History.Reason.mono (List.subset_append_left _ _) backed)
    intro id1 w id2 w' h1 h2
    exact T.single ((List.mem_append.mp h1).resolve_right (hqueued _ _ _))
      ((List.mem_append.mp h2).resolve_right (hqueued _ _ _))
  | clear =>
    change Tracked (h ++ ([] ++ _)) _
    exact T.after_set_task_of_plain ht rfl (by simp [Event.isPlain]) rfl
      (History.Reason.mono (List.subset_append_left _ _) backed)

/-- The client of a request goes away. -/
theorem after_cancel (T : Tracked h g) {n : Nat} {t : Task} {s : State} {p : Progress}
    (ht : g.tasks[n]? = some t) (hm : t.cancel g.state = some (s, p)) :
    Tracked (h ++ ([.gone n] ++ p.farewell n t.session))
      { g with state := s, tasks := g.tasks.set n { t with progress := p } } := by
  have backed := T.backed ht
  have quits := Task.quits_of_cancel hm
  have quiet : History.Quiet [.gone n] := ⟨by simp, by simp, by simp, by simp⟩
  obtain ⟨session, progress⟩ := t
  cases quits with
  | early | unrecorded =>
    exact T.after_set_task_of_plain ht rfl (by simp [Event.isPlain]) rfl (by simp [Progress.Backed, History.Reason])
  | @waiting id w =>
    have old : ∀ {m id w}, .queued m id w ∈ h ++ [.gone n] → .queued m id w ∈ h := by simp
    refine T.after_set_task ht rfl ?_ (by simp) (by simp) (by simp)
      (fun h1 h2 => T.single (old h1) (old h2)) ?_ (by simp [Progress.Backed, History.Reason])
    · refine T.accounts.append_of_quiet quiet (by simp) (by simp) fun hx hne => ?_
      rw [Queue.waiter?_leave] at hx
      split at hx
      · exact absurd (Option.some.inj hx).symm hne
      · exact hx
    · intro m id' w' hmn hq hl
      rw [Queue.waiter?_leave] at hl
      split at hl
      · rename_i hw
        exact absurd (T.accounts.owner hq (hw.1 ▸ backed.1)).1 hmn
      · exact hl

/-- Every move keeps the requests tracked. -/
theorem after_move (T : Tracked h g) {keep : Store} {m : Move}
    (hm : g.move? keep.recorder m = some after) :
    Tracked (h ++ (g.shows keep.recorder m ++ after.farewells m)) after := by
  cases m with
  | submit s =>
    obtain rfl := Option.some.inj hm
    exact T.after_submit s
  | advance n =>
    obtain ⟨t, ht, s, p, hf, rfl⟩ := Gate.moveTask_eq_some.mp hm
    have shows : g.shows keep.recorder (.advance n) = t.shows keep.recorder g.state n := by
      rw [Gate.shows, ht, Option.elim_some]
    rw [shows, Gate.farewells, Gate.farewell_set ht]
    exact T.after_advance ht hf
  | cancel n =>
    obtain ⟨t, ht, s, p, hf, rfl⟩ := Gate.moveTask_eq_some.mp hm
    rw [Gate.shows, Gate.farewells, Gate.farewell_set ht]
    exact T.after_cancel ht hf
  | approve id =>
    obtain rfl := Option.some.inj hm
    simp only [Gate.shows, Gate.farewells, List.append_nil]
    cases hf : g.state.queue.find? id with
    | none => simpa [Gate.take, hf] using T
    | some w =>
      have taken : g.take id =
          { g with
            state := { g.state with queue := g.state.queue.forget id }
            underway := g.underway ++ [⟨w, some id⟩] } := by
        simp [Gate.take, hf]
      rw [taken]
      exact T.append_of_tasks_eq (T.accounts.after_takeOne hf) rfl (by simp) (by simp) (by simp) fun hl => hl
  | drop id =>
    obtain rfl := Option.some.inj hm
    simp only [Gate.shows, Gate.farewells, List.append_nil]
    exact T.append_of_tasks_eq (T.accounts.after_remove id (some id)) rfl (by simp [Queue.thrown])
      (by simp [Queue.thrown]) (by simp [Queue.thrown]) Queue.left_of_remove
  | flush =>
    obtain rfl := Option.some.inj hm
    simp only [Gate.shows, Gate.farewells, List.append_nil]
    exact T.append_of_tasks_eq T.accounts.after_takeAll rfl (by simp) (by simp) (by simp) fun hl => hl
  | deliver k =>
    obtain ⟨s, hk, hm⟩ := Option.bind_eq_some_iff.mp hm
    obtain rfl := Option.some.inj hm
    simp only [Gate.shows, Gate.farewells, List.append_nil, hk, Option.toList_some, List.map_singleton]
    refine T.append_of_tasks_eq (T.accounts.after_deliver hk) rfl (by simp) (by simp) (by simp) fun hl => ?_
    rw [Queue.waiter?_tell] at hl
    split at hl
    · simp at hl
    · exact hl
  | turnOn =>
    obtain rfl := Option.some.inj hm
    simp only [Gate.shows, Gate.farewells, List.append_nil]
    exact ⟨T.accounts, T.came, T.numbered, T.single, T.backed, T.leavings⟩
  | turnOff =>
    obtain rfl := Option.some.inj hm
    simp only [Gate.shows, Gate.farewells, List.append_nil]
    exact ⟨T.accounts, T.came, T.numbered, T.single, T.backed, T.leavings⟩
  | flushOwed =>
    obtain ⟨-, rfl⟩ := Gate.flushOwed_eq_some.mp hm
    simp only [Gate.shows, Gate.farewells, List.append_nil]
    exact T.append_of_tasks_eq T.accounts.after_takeAll rfl (by simp) (by simp) (by simp) fun hl => hl

end Tracked
end ForwardProxy.Moderation
