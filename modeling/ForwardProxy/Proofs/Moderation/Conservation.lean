import ForwardProxy.Proofs.Moderation.Balance
import ForwardProxy.Proofs.Moderation.Moves
import ForwardProxy.Proofs.Moderation.Operator

/-!
# Signals are conserved

Whatever is done with a queue, by any number of callers at a time, each signal that has been added is in
one place: it is pending, under way to its waiter, has reached it, or is lost. `Conserved` says where the
signals are, and `Answers` what the queue does with them when it is called. Calls that nothing interrupts
are a special case, and so is what the gate does with its queue.

* `Balanced.conserved`, `Balanced.answers`: both follow from the balance of a run, without another induction.
* `SameBut`: a call on one id has nothing to do with the others. `Orderly.sameBut_remove`, `sameBut_approve` and
  `sameBut_add` are the three operations.
* `run_call`, `run_calls`: a call that nothing interrupts is a run, and so is any sequence of calls. An approval or a
  flush takes signals out in one move and sends them in others (`run_send`).
* `signals_are_conserved`: every run.
* `Gate.Run.queue_run`: the queue of the gate is one that is called in some order, as each move of the gate is a call
  or leaves the queue alone.

## What is lost

A signal is lost when it is thrown away, by a removal or because its id is used again, and when it is sent to a waiter
that has gone away; then the operator hears that the request is not there any more (`approve_released`). No signal is
in two of the places, and none in no place. `told` says besides what the waiter knows: nothing if it has gone away
(`History.hearing`), and otherwise what has been done with its signal.
-/

namespace ForwardProxy.Moderation

/-! ## Calls on a queue -/

namespace Queue

variable {q r : Queue} {id w : Nat}

/-- Nothing but the request under an id has become different. -/
structure SameBut (id : Nat) (q r : Queue) : Prop where
  pending : ∀ {i w}, i ≠ id → ((i, w) ∈ r.pending ↔ (i, w) ∈ q.pending)
  waiters : ∀ {w}, w < q.waiters.length → (id, w) ∉ q.pending → r.waiter? w = q.waiter? w

theorem approve_of_find? (h : q.find? id = some w) :
    q.approve id = (if q.waiter? w = some .waiting then .ok () else .error (.released id),
      (q.forget id).tell w .released) := by
  simp only [approve, h]
  split <;> rfl

theorem approve_of_find?_none (h : q.find? id = none) :
    q.approve id = (.error (.notFound id), q) := by
  simp [approve, h]

theorem contains_eq_false_iff : q.contains id = false ↔ q.find? id = none := by
  simp [contains]

/-- A flush tells all waiters that are pending. -/
theorem waiter?_foldl_tell (ps : List (Nat × Nat)) (q : Queue) (w : Nat) :
    (ps.foldl (fun q p => q.tell p.2 .released) q).waiter? w =
      if w ∈ ps.map Prod.snd ∧ q.waiter? w = some .waiting then some .released else q.waiter? w := by
  induction ps generalizing q with
  | nil => simp
  | cons p ps ih =>
    rw [List.foldl_cons, ih]
    by_cases hw : w = p.2
    · subst hw
      by_cases hx : q.waiter? p.2 = some .waiting <;> simp [waiter?_tell, hx]
    · have other : (q.tell p.2 .released).waiter? w = q.waiter? w := by
        rw [waiter?_tell, if_neg fun h => hw h.1]
      simp only [other, List.map_cons, List.mem_cons, hw, false_or]

theorem SameBut.refl (id : Nat) (q : Queue) : q.SameBut id q := ⟨fun _ => .rfl, fun _ _ => rfl⟩

/-- A request is taken out and told something. -/
theorem sameBut_forget_tell (hf : (id, w) ∈ q.pending) (x : Waiter) :
    q.SameBut id ((q.forget id).tell w x) where
  pending hi := by simp [mem_forget, hi]
  waiters := by
    intro v hv hp
    have hvw : v ≠ w := by
      rintro rfl
      exact hp hf
    rw [waiter?_tell, if_neg fun h => hvw h.1]
    rfl

theorem Orderly.sameBut_remove (hq : q.Orderly) (id : Nat) : q.SameBut id (q.remove id).2 := by
  cases hf : q.find? id with
  | none =>
    rw [remove_of_find?_none hf]
    exact .refl id q
  | some w =>
    rw [remove_of_find? hf]
    exact sameBut_forget_tell (hq.find?_eq_some_iff.mp hf) _

theorem Orderly.sameBut_approve (hq : q.Orderly) (id : Nat) : q.SameBut id (q.approve id).2 := by
  cases hf : q.find? id with
  | none =>
    rw [approve_of_find?_none hf]
    exact .refl id q
  | some w =>
    rw [approve_of_find? hf]
    exact sameBut_forget_tell (hq.find?_eq_some_iff.mp hf) _

theorem Orderly.sameBut_add (hq : q.Orderly) (id : Nat) : q.SameBut id (q.add id).2 where
  pending := by
    intro i w hi
    rw [mem_add]
    simp [hi]
  waiters := by
    intro w hw hp
    have old : w ≠ (q.remove id).2.waiters.length := by
      rw [length_remove]
      exact Nat.ne_of_lt hw
    rw [Queue.add, waiter?_enqueue, if_neg old]
    exact (hq.sameBut_remove id).waiters hw hp

end Queue

namespace SharedQueue

variable {h : History} {s : SharedQueue}

/-! ## Where signals are -/

/-- Signals are where a history says. -/
structure Conserved (h : History) (s : SharedQueue) : Prop where
  /-- A signal that has been added is in one place, and it is there once. -/
  placed : ∀ {w id}, .added w id ∈ h → h.additions w = 1 ∧
    s.pendings w + s.sendings w + h.releases w + h.discards w = 1
  /-- When no signal is under way, that is one of three. -/
  settled : ∀ {w id}, .added w id ∈ h → s.underway = [] →
    (s.pendings w = 1 ∧ h.releases w = 0 ∧ h.discards w = 0) ∨
    (s.pendings w = 0 ∧ h.releases w = 1 ∧ h.discards w = 0) ∨
    (s.pendings w = 0 ∧ h.releases w = 0 ∧ h.discards w = 1)
  /-- There are no other signals. -/
  added : ∀ {w}, 0 < s.pendings w + s.sendings w + h.releases w + h.discards w → ∃ id, .added w id ∈ h
  /-- A waiter knows what has become of its signal, unless it has gone away. -/
  told : ∀ {w id}, .added w id ∈ h → s.queue.waiter? w = some (h.told w)
  /-- What is pending under an id has been added last. -/
  latest : ∀ {id w}, (id, w) ∈ s.queue.pending → h.latest? id = some w
  /-- A signal that is under way reaches its waiter, unless that has gone away. -/
  reaches : ∀ {x}, x ∈ s.underway → s.queue.waiter? x.waiter = some (h.hearing x.waiter .waiting)
  /-- In the name of an id, only signals are used that have been added under it. -/
  named : ∀ {x id}, (x ∈ s.underway ∨ ∃ e ∈ h, e.signal? = some x) → x.named = some id →
    .added x.waiter id ∈ h

theorem Balanced.known_iff (b : Balanced h s) {w : Nat} :
    w < s.queue.waiters.length ↔ ∃ id, .added w id ∈ h := by
  rw [← History.additions_pos_iff, b.numbered]
  split <;> simp [*]

theorem Balanced.conserved (b : Balanced h s) : Conserved h s where
  placed := by
    intro w id hw
    have known := b.known_iff.mpr ⟨id, hw⟩
    exact ⟨by rw [b.numbered, if_pos known], b.placed_eq_one known⟩
  settled := by
    intro w id hw hu
    have one := b.placed_eq_one (b.known_iff.mpr ⟨id, hw⟩)
    have none_underway : s.sendings w = 0 := by simp [sendings, hu]
    omega
  added := by
    intro w hw
    rw [b.placed] at hw
    exact History.additions_pos_iff.mp hw
  told hw := b.told (b.known_iff.mpr ⟨_, hw⟩)
  latest := b.latest
  reaches := by
    intro x hx
    obtain ⟨known, hr, hd⟩ := b.unused_of_held (Nat.add_pos_right _ (Balanced.sendings_pos hx))
    rw [b.told known, History.told_of_unused hr hd]
  named := by
    rintro x id (hx | ⟨e, he, hx⟩) hid
    · exact b.underway_named hx hid
    · exact b.used_named he hx hid

/-! ## What the queue does when it is called -/

/-- What a queue answers, and what it does with signals. -/
structure Answers (h : History) (q : Queue) : Prop where
  /-- What has been added is pending, and its waiter waits. -/
  add : ∀ id, (id, (q.add id).1) ∈ (q.add id).2.pending ∧
    (q.add id).2.waiter? (q.add id).1 = some .waiting
  /-- What was pending under the id is discarded. -/
  replaced : ∀ {id w}, (id, w) ∈ q.pending →
    (id, w) ∉ (q.add id).2.pending ∧ (q.add id).2.waiter? w = some (h.hearing w .dropped)
  remove : ∀ id, (q.remove id).1 = q.contains id ∧ (q.remove id).2.contains id = false
  removed : ∀ {id w}, (id, w) ∈ q.pending →
    (q.remove id).2.waiter? w = some (h.hearing w .dropped)
  approve_ok : ∀ id, (q.approve id).1 = .ok () ↔ ∃ w, (id, w) ∈ q.pending ∧ .left w ∉ h
  approve_released : ∀ id,
    (q.approve id).1 = .error (.released id) ↔ ∃ w, (id, w) ∈ q.pending ∧ .left w ∈ h
  approve_notFound : ∀ id, (q.approve id).1 = .error (.notFound id) ↔ ∀ w, (id, w) ∉ q.pending
  approve_gone : ∀ id, (q.approve id).2.contains id = false
  approved : ∀ {id w}, (id, w) ∈ q.pending →
    (q.approve id).2.waiter? w = some (h.hearing w .released)
  flush : q.flush.1 = q.pending.length ∧ q.flush.2.pending = []
  flushed : ∀ {id w}, (id, w) ∈ q.pending → q.flush.2.waiter? w = some (h.hearing w .released)
  flush_others : ∀ w, (∀ id, (id, w) ∉ q.pending) → q.flush.2.waiter? w = q.waiter? w
  /-- No call on an id has to do with other signals. -/
  others : ∀ id, q.SameBut id (q.add id).2 ∧ q.SameBut id (q.remove id).2 ∧
    q.SameBut id (q.approve id).2
  ids : q.ids.Pairwise (· < ·)
  count : q.count = q.ids.length
  contains : ∀ id, q.contains id ↔ id ∈ q.ids
  mem_ids : ∀ id, id ∈ q.ids ↔ ∃ w, (id, w) ∈ q.pending

namespace Balanced

variable {q : Queue} {u : List Signal} {id w : Nat}

/-- A waiter whose signal is pending waits, unless it has gone away. -/
theorem pending_told (b : Balanced h ⟨q, u⟩) (hp : (id, w) ∈ q.pending) :
    q.waiter? w = some (h.hearing w .waiting) := by
  have held : 0 < (⟨q, u⟩ : SharedQueue).pendings w := pendings_pos hp
  obtain ⟨known, hr, hd⟩ := b.unused_of_held (Nat.add_pos_left held _)
  have told : q.waiter? w = some (h.told w) := b.told known
  rw [told, History.told_of_unused hr hd]

/-- A waiter whose signal is pending hears what it is told, unless it has gone away. -/
theorem pending_hears (b : Balanced h ⟨q, u⟩) (hp : (id, w) ∈ q.pending) (x : Waiter) :
    ((q.forget id).tell w x).waiter? w = some (h.hearing w x) := by
  have before : (q.forget id).waiter? w = some (h.hearing w .waiting) := b.pending_told hp
  rw [Queue.waiter?_tell, before, History.hearing, History.hearing]
  by_cases hl : .left w ∈ h <;> simp [hl]

theorem waiter?_remove (b : Balanced h ⟨q, u⟩) (hp : (id, w) ∈ q.pending) :
    (q.remove id).2.waiter? w = some (h.hearing w .dropped) := by
  rw [Queue.remove_of_find? (b.orderly.find?_eq_some_iff.mpr hp)]
  exact b.pending_hears hp .dropped

theorem waiter?_add (b : Balanced h ⟨q, u⟩) (hp : (id, w) ∈ q.pending) :
    (id, w) ∉ (q.add id).2.pending ∧ (q.add id).2.waiter? w = some (h.hearing w .dropped) := by
  have old : w ≠ (q.remove id).2.waiters.length := by
    rw [Queue.length_remove]
    exact Nat.ne_of_lt (b.orderly.known _ hp)
  constructor
  · rw [Queue.mem_add]
    rintro (hnew | ⟨-, hid⟩)
    · exact old (congrArg Prod.snd hnew)
    · exact hid rfl
  · rw [Queue.add, Queue.waiter?_enqueue, if_neg old]
    exact b.waiter?_remove hp

/-- The answer to an approval depends on what is pending and on who has gone away. -/
theorem approve_eq (b : Balanced h ⟨q, u⟩) (hp : (id, w) ∈ q.pending) :
    q.approve id = (if .left w ∈ h then .error (.released id) else .ok (),
      (q.forget id).tell w .released) := by
  rw [Queue.approve_of_find? (b.orderly.find?_eq_some_iff.mpr hp), b.pending_told hp,
    History.hearing]
  by_cases hl : .left w ∈ h <;> simp [hl]

theorem approve_none (b : Balanced h ⟨q, u⟩) (hp : ∀ w, (id, w) ∉ q.pending) :
    q.approve id = (.error (.notFound id), q) := by
  refine Queue.approve_of_find?_none (Option.eq_none_iff_forall_ne_some.mpr fun w hw => ?_)
  exact hp w (b.orderly.find?_eq_some_iff.mp hw)

/-- Nothing else is pending under an id. -/
theorem pending_iff (b : Balanced h ⟨q, u⟩) (hp : (id, w) ∈ q.pending) {v : Nat} :
    (id, v) ∈ q.pending ↔ v = w := by
  constructor
  · intro hv
    exact Option.some.inj ((b.latest hv).symm.trans (b.latest hp))
  · rintro rfl
    exact hp

theorem answers (b : Balanced h ⟨q, u⟩) : Answers h q where
  add id := by
    refine ⟨Queue.mem_add.mpr (.inl rfl), ?_⟩
    rw [Queue.add, Queue.waiter?_enqueue]
    exact if_pos rfl
  replaced := b.waiter?_add
  remove id := by
    refine ⟨?_, Queue.contains_eq_false_iff.mpr (q.find?_remove id)⟩
    cases hf : q.find? id <;> simp [Queue.remove, Queue.contains, hf]
  removed := b.waiter?_remove
  approve_ok id := by
    rcases exists_or_forall_not fun w => (id, w) ∈ q.pending with ⟨w, hp⟩ | hp
    · rw [b.approve_eq hp]
      by_cases hl : .left w ∈ h <;> simp [hl, b.pending_iff hp]
    · simp [b.approve_none hp, hp]
  approve_released id := by
    rcases exists_or_forall_not fun w => (id, w) ∈ q.pending with ⟨w, hp⟩ | hp
    · rw [b.approve_eq hp]
      by_cases hl : .left w ∈ h <;> simp [hl, b.pending_iff hp]
    · simp [b.approve_none hp, hp]
  approve_notFound id := by
    rcases exists_or_forall_not fun w => (id, w) ∈ q.pending with ⟨w, hp⟩ | hp
    · rw [b.approve_eq hp]
      by_cases hl : .left w ∈ h <;> simp [hl, b.pending_iff hp]
    · simp [b.approve_none hp, hp]
  approve_gone id := by
    rcases exists_or_forall_not fun w => (id, w) ∈ q.pending with ⟨w, hp⟩ | hp
    · rw [b.approve_eq hp]
      exact Queue.contains_eq_false_iff.mpr (q.find?_forget_tell id w .released)
    · rw [b.approve_none hp, Queue.contains_eq_false_iff, Queue.find?_eq_none_iff]
      rintro p hmem rfl
      exact hp p.2 hmem
  approved hp := by
    rw [b.approve_eq hp]
    exact b.pending_hears hp .released
  flush := ⟨rfl, rfl⟩
  flushed := by
    intro id w hp
    have told := b.pending_told hp
    have here : w ∈ q.pending.map Prod.snd := List.mem_map.mpr ⟨_, hp, rfl⟩
    change (q.pending.foldl (fun q p => q.tell p.2 .released) q).waiter? w = _
    rw [Queue.waiter?_foldl_tell, told, History.hearing, History.hearing]
    by_cases hl : .left w ∈ h <;> simp [hl, here]
  flush_others := by
    intro w hw
    have elsewhere : w ∉ q.pending.map Prod.snd := by simpa using hw
    change (q.pending.foldl (fun q p => q.tell p.2 .released) q).waiter? w = _
    rw [Queue.waiter?_foldl_tell, if_neg fun h => elsewhere h.1]
  others id :=
    ⟨b.orderly.sameBut_add id, b.orderly.sameBut_remove id, b.orderly.sameBut_approve id⟩
  ids := List.pairwise_map.mpr b.orderly.ids
  count := (List.length_map _).symm
  contains id := by simp [Queue.contains, Queue.find?, Queue.ids]
  mem_ids id := by simp [Queue.ids]

end Balanced

/-! ## Calls that nothing interrupts -/

/-- Signals that are under way behind others are sent one after the other. -/
theorem run_send {start : SharedQueue} {u xs : List Signal} {q : Queue}
    (r : system.Run start h ⟨q, u ++ xs⟩) :
    ∃ h', system.Run start (h ++ h') ⟨xs.foldl (fun q x => q.tell x.waiter .released) q, u⟩ := by
  induction xs generalizing h q with
  | nil => exact ⟨[], by simpa using r⟩
  | cons x xs ih =>
    have sent : system.move? ⟨q, u ++ x :: xs⟩ (.send u.length) =
        some ⟨q.tell x.waiter .released, u ++ xs⟩ := by
      simp [system, move?, List.eraseIdx_append_of_length_le]
    obtain ⟨h', rest⟩ := ih (r.move (.send u.length) sent)
    rw [List.append_assoc] at rest
    exact ⟨_, rest⟩

/-- A call that nothing interrupts is a run. -/
theorem run_call {start s : SharedQueue} (r : system.Run start h s) (c : Queue.Call) :
    ∃ h', system.Run start (h ++ h') { s with queue := s.queue.after c } := by
  obtain ⟨q, u⟩ := s
  cases c with
  | add id => exact ⟨_, r.move (.add id) rfl⟩
  | remove id => exact ⟨_, r.move (.remove id) rfl⟩
  | approve id =>
    obtain ⟨h', sent⟩ := run_send (r.move (.take id) rfl)
    have approved : (q.signals id).foldl (fun q x => q.tell x.waiter .released) (q.forget id) =
        (q.approve id).2 := by
      cases hf : q.find? id with
      | none =>
        simp [Queue.signals, hf, Queue.approve_of_find?_none hf, Queue.forget_of_find?_none hf]
      | some w => simp [Queue.signals, hf, Queue.approve_of_find? hf]
    rw [approved, List.append_assoc] at sent
    exact ⟨_, sent⟩
  | flush =>
    obtain ⟨h', sent⟩ := run_send (r.move .takeAll rfl)
    rw [Queue.allSignals, Gate.foldl_tell, List.append_assoc] at sent
    exact ⟨_, sent⟩
  | leave w => exact ⟨_, r.move (.leave w) rfl⟩

/-- Any sequence of calls is a run. -/
theorem run_calls {start s : SharedQueue} (r : system.Run start h s) (cs : List Queue.Call) :
    ∃ h', system.Run start (h ++ h') { s with queue := cs.foldl Queue.after s.queue } := by
  induction cs generalizing h s with
  | nil => exact ⟨[], by simpa using r⟩
  | cons c cs ih =>
    obtain ⟨h₁, first⟩ := run_call r c
    obtain ⟨h₂, rest⟩ := ih first
    rw [List.append_assoc] at rest
    exact ⟨_, rest⟩

/-! ## All runs -/

/-- Whatever has been done with a queue, its signals are conserved, and it answers as it should; and
whatever is called next, it stays so. -/
theorem signals_are_conserved (r : system.Run {} h s) :
    Conserved h s ∧ Answers h s.queue ∧ ∀ cs : List Queue.Call, ∃ h',
      system.Run {} (h ++ h') { s with queue := cs.foldl Queue.after s.queue } := by
  have b : Balanced h s := .of_run r
  exact ⟨b.conserved, b.answers, run_calls r⟩

/-- An id is used twice, a waiter goes away, and a flush comes between the two parts of an approval. -/
def crossed : History :=
  [.added 0 7, .discarded ⟨0, some 7⟩, .added 1 7, .added 2 3, .left 2, .added 3 9,
    .sent ⟨2, none⟩ false, .sent ⟨1, some 7⟩ true, .added 4 7]

theorem signals_are_conserved_crossed :
    ∃ s, system.Run {} crossed s ∧ Conserved crossed s ∧ Answers crossed s.queue ∧
      s.queue.waiters = [.dropped, .released, .left, .waiting, .waiting] ∧
      crossed.discards 0 = 1 ∧ crossed.releases 1 = 1 ∧ crossed.discards 2 = 1 ∧
      s.sendings 3 = 1 ∧ s.pendings 4 = 1 := by
  have moves : system.replay {}
      [.add 7, .add 7, .add 3, .leave 2, .add 9, .take 7, .takeAll, .send 1, .send 0, .add 7] =
        some (crossed, _) := rfl
  have run := StepSystem.Run.of_replay moves
  obtain ⟨conserved, answers, -⟩ := signals_are_conserved run
  exact ⟨_, run, conserved, answers, rfl, rfl, rfl, rfl, rfl, rfl⟩

end SharedQueue

/-! ## The queue of the gate -/

/-- A request that moves adds a signal to the queue, or removes one, or leaves the queue as it is. -/
theorem Task.Moves.queue_cases {keep : Store} {s s' : State} {session : Proxy.Session}
    {p p' : Progress} (hm : Task.Moves keep s session p s' p') :
    s'.queue = s.queue ∨ (∃ id, s'.queue = (s.queue.add id).2) ∨
      ∃ id, s'.queue = (s.queue.remove id).2 := by
  cases hm with
  | enqueue => exact .inr (.inl ⟨_, rfl⟩)
  | leave => exact .inr (.inr ⟨_, rfl⟩)
  | _ => exact .inl rfl

/-- The waiter of a request whose client goes away goes away, or the queue is left as it is. -/
theorem Task.Quits.queue_cases {s s' : State} {p p' : Progress} (hm : Task.Quits s p s' p') :
    s'.queue = s.queue ∨ ∃ w, s'.queue = s.queue.leave w := by
  cases hm with
  | early | unrecorded => exact .inl rfl
  | waiting => exact .inr ⟨_, rfl⟩

/-- Whatever goes on at the gate, its queue is one that is called in some order. -/
theorem Gate.Run.queue_run {stores : Store → Prop} {start : State} {h : History} {g : Gate}
    (r : Gate.Run stores start h g) (hq : start.queue = {}) :
    ∃ h', SharedQueue.system.Run {} h' ⟨g.state.queue, g.underway⟩ := by
  induction r with
  | start => exact ⟨[], hq ▸ .start⟩
  | @move _ g _ _ m _ _ hm ih =>
    obtain ⟨h', run⟩ := ih
    cases m with
    | submit _ | turnOn | turnOff =>
      obtain rfl := Option.some.inj hm
      exact ⟨h', run⟩
    | advance n =>
      obtain ⟨t, ht, s, p, moves, rfl⟩ := Gate.moveTask_eq_some.mp hm
      rcases (Task.moves_of_advance moves).queue_cases with same | ⟨id, added⟩ | ⟨id, removed⟩
      · exact ⟨h', by simpa only [same] using run⟩
      · exact ⟨_, by simpa only [added] using StepSystem.Run.move (.add id) run rfl⟩
      · exact ⟨_, by simpa only [removed] using StepSystem.Run.move (.remove id) run rfl⟩
    | cancel n =>
      obtain ⟨t, ht, s, p, quits, rfl⟩ := Gate.moveTask_eq_some.mp hm
      rcases (Task.quits_of_cancel quits).queue_cases with same | ⟨w, left⟩
      · exact ⟨h', by simpa only [same] using run⟩
      · exact ⟨_, by simpa only [left] using StepSystem.Run.move (.leave w) run rfl⟩
    | approve id =>
      obtain rfl := Option.some.inj hm
      have taken := run.move (.take id) rfl
      cases hf : g.state.queue.find? id with
      | none =>
        simp only [Queue.signals, hf, Queue.forget_of_find?_none hf] at taken
        exact ⟨_, by simpa [Gate.take, hf] using taken⟩
      | some w => exact ⟨_, by simpa [Gate.take, Queue.signals, hf] using taken⟩
    | drop id =>
      obtain rfl := Option.some.inj hm
      exact ⟨_, run.move (.remove id) rfl⟩
    | flush =>
      obtain rfl := Option.some.inj hm
      exact ⟨_, run.move .takeAll rfl⟩
    | deliver k =>
      obtain ⟨x, hk, e⟩ := Option.bind_eq_some_iff.mp hm
      obtain rfl := Option.some.inj e
      have sent : SharedQueue.system.move? ⟨g.state.queue, g.underway⟩ (.send k) =
          some ⟨g.state.queue.tell x.waiter .released, g.underway.eraseIdx k⟩ := by
        simp [SharedQueue.system, SharedQueue.move?, hk]
      exact ⟨_, run.move (.send k) sent⟩
    | flushOwed =>
      obtain ⟨-, rfl⟩ := Gate.flushOwed_eq_some.mp hm
      exact ⟨_, run.move .takeAll rfl⟩

end ForwardProxy.Moderation
