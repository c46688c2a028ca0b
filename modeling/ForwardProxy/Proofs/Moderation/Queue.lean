import ForwardProxy.Moderation.Queue

/-!
# What the queue's operations do

Three things are seen of a queue: which waiter is pending under which id, what has become of a
waiter, and how many waiters there are. For each operation there is one lemma for each of them.
An orderly queue has no id twice and no waiter twice; all operations keep it so.

* `mem_insertEntry`, `mem_forget`, `mem_remove`, `mem_add`: what is pending afterwards.
* `waiter?_tell`, `waiter?_leave`, `waiter?_enqueue`: what has become of the waiters. Only a waiter that waits hears
  what it is told, so a waiter that has gone away stays away (`left_of_remove`, `left_of_add`).
* `Orderly.sublist`, `Orderly.forget`, `Orderly.tell`, `Orderly.enqueue`: order is kept. The first of these covers all
  operations that only take entries out.
* `remove_of_find?`, `remove_of_find?_none`: removing is looking up, forgetting and telling.

Entries are kept in a list that ascends by id, and `insertEntry` puts a new one where it belongs; the induction of
`pairwise_insertEntry` is on that list. `Orderly.enqueue` asks for a free id, and to add under an id that is taken
is to remove first, so that no later module has two entries of one id to think of.
-/

namespace ForwardProxy.Moderation.Queue

/-! ## Waiters -/

@[simp] theorem tell_pending (q : Queue) (n : Nat) (w : Waiter) :
    (q.tell n w).pending = q.pending := by
  unfold tell
  split <;> rfl

@[simp] theorem length_tell (q : Queue) (n : Nat) (w : Waiter) :
    (q.tell n w).waiters.length = q.waiters.length := by
  unfold tell
  split
  · exact List.length_set
  · rfl

/-- Only a waiter that waits hears what it is told. -/
theorem waiter?_tell (q : Queue) (n m : Nat) (w : Waiter) :
    (q.tell n w).waiter? m =
      if m = n ∧ q.waiter? n = some .waiting then some w else q.waiter? m := by
  unfold tell
  split
  · rename_i hw
    have hn : n < q.waiters.length := (List.getElem?_eq_some_iff.mp hw).1
    by_cases hm : m = n
    · subst hm
      rw [if_pos ⟨rfl, hw⟩]
      exact List.getElem?_set_self hn
    · rw [if_neg fun h => hm h.1]
      exact List.getElem?_set_ne (Ne.symm hm)
  · rename_i hw
    rw [if_neg fun h => hw h.2]

@[simp] theorem leave_pending (q : Queue) (n : Nat) : (q.leave n).pending = q.pending := by
  unfold leave
  split <;> rfl

@[simp] theorem length_leave (q : Queue) (n : Nat) :
    (q.leave n).waiters.length = q.waiters.length := by
  unfold leave
  split
  · exact List.length_set
  · rfl

theorem waiter?_leave (q : Queue) (n m : Nat) :
    (q.leave n).waiter? m =
      if m = n ∧ n < q.waiters.length then some .left else q.waiter? m := by
  unfold leave
  split
  · rename_i hn
    by_cases hm : m = n
    · subst hm
      rw [if_pos ⟨rfl, hn⟩]
      exact List.getElem?_set_self hn
    · rw [if_neg fun h => hm h.1]
      exact List.getElem?_set_ne (Ne.symm hm)
  · rename_i hn
    rw [if_neg fun h => hn h.2]

theorem exists_waiter? {q : Queue} {n : Nat} (h : n < q.waiters.length) :
    ∃ w, q.waiter? n = some w :=
  ⟨q.waiters[n], List.getElem?_eq_getElem h⟩

/-! ## Orderly queues -/

/-- Ids ascend strictly, no waiter is pending twice, and all that are pending have been handed
out. -/
structure Orderly (q : Queue) : Prop where
  ids : q.pending.Pairwise fun a b => a.1 < b.1
  waiters : ∀ a ∈ q.pending, ∀ b ∈ q.pending, a.2 = b.2 → a = b
  known : ∀ p ∈ q.pending, p.2 < q.waiters.length

theorem orderly_empty : Orderly {} := ⟨.nil, by simp, by simp⟩

/-- Two entries of an ascending list that have one id are the same. -/
theorem eq_of_id_eq {ps : List (Nat × Nat)} (h : ps.Pairwise fun a b => a.1 < b.1)
    {a b : Nat × Nat} (ha : a ∈ ps) (hb : b ∈ ps) (hid : a.1 = b.1) : a = b := by
  induction ps with
  | nil => cases ha
  | cons p ps ih =>
    obtain ⟨hp, hps⟩ := List.pairwise_cons.mp h
    rcases List.mem_cons.mp ha with ha | ha <;> rcases List.mem_cons.mp hb with hb | hb
    · rw [ha, hb]
    · exact absurd hid (Nat.ne_of_lt (ha ▸ hp b hb))
    · exact absurd hid (Nat.ne_of_gt (hb ▸ hp a ha))
    · exact ih hps ha hb

/-- A look-up finds exactly what is pending. -/
theorem Orderly.find?_eq_some_iff {q : Queue} (hq : q.Orderly) {id w : Nat} :
    q.find? id = some w ↔ (id, w) ∈ q.pending := by
  constructor
  · intro h
    obtain ⟨p, hp, rfl⟩ := Option.map_eq_some_iff.mp h
    have hid : p.1 = id := by simpa using List.find?_some hp
    rw [← hid]
    exact List.mem_of_find?_eq_some hp
  · intro h
    cases hf : q.pending.find? fun p => p.1 = id with
    | none =>
      have := List.find?_eq_none.mp hf (id, w) h
      simp at this
    | some p =>
      have hid : p.1 = id := by simpa using List.find?_some hf
      have hp : p = (id, w) := eq_of_id_eq hq.ids (List.mem_of_find?_eq_some hf) h hid
      simp [find?, hf, hp]

theorem find?_eq_none_iff {q : Queue} {id : Nat} :
    q.find? id = none ↔ ∀ p ∈ q.pending, p.1 ≠ id := by
  simp [find?]

/-! ## Entries -/

theorem mem_forget {q : Queue} {id : Nat} {p : Nat × Nat} :
    p ∈ (q.forget id).pending ↔ p ∈ q.pending ∧ p.1 ≠ id := by
  simp [forget]

theorem mem_insertEntry {e p : Nat × Nat} {ps : List (Nat × Nat)} :
    p ∈ insertEntry e ps ↔ p = e ∨ p ∈ ps := by
  induction ps with
  | nil => simp [insertEntry]
  | cons a ps ih =>
    simp only [insertEntry]
    split
    · rw [List.mem_cons, ih, List.mem_cons]
      exact or_left_comm
    · exact List.mem_cons

theorem pairwise_insertEntry {e : Nat × Nat} :
    ∀ {ps : List (Nat × Nat)}, ps.Pairwise (fun a b => a.1 < b.1) → (∀ p ∈ ps, p.1 ≠ e.1) →
      (insertEntry e ps).Pairwise fun a b => a.1 < b.1
  | [], _, _ => by simp [insertEntry]
  | a :: ps, h, hne => by
    obtain ⟨ha, hps⟩ := List.pairwise_cons.mp h
    have hae : a.1 ≠ e.1 := hne a List.mem_cons_self
    simp only [insertEntry]
    split
    · rename_i hlt
      refine List.pairwise_cons.mpr ⟨?_, pairwise_insertEntry hps fun p hp => hne p (.tail _ hp)⟩
      intro p hp
      rcases mem_insertEntry.mp hp with rfl | hp
      · exact hlt
      · exact ha p hp
    · rename_i hlt
      have hea : e.1 < a.1 := by omega
      refine List.pairwise_cons.mpr ⟨?_, h⟩
      intro p hp
      rcases List.mem_cons.mp hp with rfl | hp
      · exact hea
      · exact Nat.lt_trans hea (ha p hp)

/-! ## Operations on orderly queues -/

/-- A queue with some of the entries of an orderly one, and with as many waiters, is orderly. -/
theorem Orderly.sublist {q r : Queue} (hq : q.Orderly) (hp : r.pending.Sublist q.pending)
    (hw : r.waiters.length = q.waiters.length) : r.Orderly where
  ids := hq.ids.sublist hp
  waiters a ha b hb := hq.waiters a (hp.subset ha) b (hp.subset hb)
  known p h := hw ▸ hq.known p (hp.subset h)

theorem Orderly.forget {q : Queue} (hq : q.Orderly) (id : Nat) : (q.forget id).Orderly :=
  hq.sublist List.filter_sublist rfl

theorem Orderly.tell {q : Queue} (hq : q.Orderly) (n : Nat) (w : Waiter) :
    (q.tell n w).Orderly :=
  hq.sublist (by simp) (by simp)

theorem Orderly.enqueue {q : Queue} (hq : q.Orderly) {id : Nat} (hid : q.find? id = none) :
    (q.enqueue id).2.Orderly where
  ids := pairwise_insertEntry hq.ids (find?_eq_none_iff.mp hid)
  waiters a ha b hb hab := by
    rcases mem_insertEntry.mp ha with ha | ha <;> rcases mem_insertEntry.mp hb with hb | hb
    · rw [ha, hb]
    · exact absurd hab (Nat.ne_of_gt (ha ▸ hq.known b hb))
    · exact absurd hab (Nat.ne_of_lt (hb ▸ hq.known a ha))
    · exact hq.waiters a ha b hb hab
  known p hp := by
    have hlen : (q.enqueue id).2.waiters.length = q.waiters.length + 1 := by simp [Queue.enqueue]
    rcases mem_insertEntry.mp hp with rfl | hp
    · omega
    · have := hq.known p hp
      omega

theorem waiter?_enqueue (q : Queue) (id m : Nat) :
    (q.enqueue id).2.waiter? m =
      if m = q.waiters.length then some .waiting else q.waiter? m := by
  simp only [enqueue, waiter?]
  split
  · rename_i hm
    subst hm
    exact List.getElem?_concat_length
  · rename_i hm
    rcases Nat.lt_or_gt_of_ne hm with h | h
    · exact List.getElem?_append_left h
    · have hm' : (q.waiters ++ [Waiter.waiting]).length ≤ m := by
        rw [List.length_append, List.length_singleton]
        omega
      rw [List.getElem?_eq_none hm', List.getElem?_eq_none (Nat.le_of_lt h)]

theorem remove_of_find? {q : Queue} {id w : Nat} (h : q.find? id = some w) :
    q.remove id = (true, (q.forget id).tell w .dropped) := by
  simp [remove, h]

theorem remove_of_find?_none {q : Queue} {id : Nat} (h : q.find? id = none) :
    q.remove id = (false, q) := by
  simp [remove, h]

/-- Nothing is pending under an id that has been taken out, whatever its waiter is told. -/
theorem find?_forget_tell (q : Queue) (id w : Nat) (x : Waiter) :
    ((q.forget id).tell w x).find? id = none := by
  rw [find?_eq_none_iff]
  intro p hp
  exact (mem_forget.mp (by simpa using hp)).2

/-- Nothing is pending under an id that has been removed. -/
theorem find?_remove (q : Queue) (id : Nat) : (q.remove id).2.find? id = none := by
  cases h : q.find? id with
  | none => rw [remove_of_find?_none h]; exact h
  | some w => rw [remove_of_find? h]; exact q.find?_forget_tell id w .dropped

theorem length_remove (q : Queue) (id : Nat) :
    (q.remove id).2.waiters.length = q.waiters.length := by
  cases h : q.find? id with
  | none => rw [remove_of_find?_none h]
  | some w => rw [remove_of_find? h]; simp [Queue.forget]

/-- Removing puts nothing into the queue. -/
theorem mem_of_mem_remove {q : Queue} {id : Nat} {p : Nat × Nat}
    (h : p ∈ (q.remove id).2.pending) : p ∈ q.pending := by
  cases hf : q.find? id with
  | none => rwa [remove_of_find?_none hf] at h
  | some w =>
    rw [remove_of_find? hf, tell_pending] at h
    exact (mem_forget.mp h).1

/-- Removing takes out what is pending under the id, and nothing else. -/
theorem mem_remove {q : Queue} {id : Nat} {p : Nat × Nat} :
    p ∈ (q.remove id).2.pending ↔ p ∈ q.pending ∧ p.1 ≠ id := by
  cases hf : q.find? id with
  | none =>
    rw [remove_of_find?_none hf]
    exact ⟨fun h => ⟨h, find?_eq_none_iff.mp hf p h⟩, And.left⟩
  | some w => rw [remove_of_find? hf, tell_pending, mem_forget]

theorem mem_add {q : Queue} {id : Nat} {p : Nat × Nat} :
    p ∈ (q.add id).2.pending ↔ p = (id, (q.add id).1) ∨ p ∈ q.pending ∧ p.1 ≠ id := by
  rw [← mem_remove]
  exact mem_insertEntry

/-- Adding puts nothing into the queue but the new waiter. -/
theorem mem_of_mem_add {q : Queue} {id : Nat} {p : Nat × Nat}
    (h : p ∈ (q.add id).2.pending) : p ∈ q.pending ∨ p.2 = q.waiters.length := by
  rcases mem_insertEntry.mp h with rfl | h
  · exact .inr (length_remove q id)
  · exact .inl (mem_of_mem_remove h)

/-- No waiter goes away when something is removed. -/
theorem left_of_remove {q : Queue} {id w : Nat}
    (h : (q.remove id).2.waiter? w = some .left) : q.waiter? w = some .left := by
  cases hf : q.find? id with
  | none => rwa [remove_of_find?_none hf] at h
  | some n =>
    rw [remove_of_find? hf, waiter?_tell] at h
    split at h
    · simp at h
    · exact h

/-- No waiter goes away when something is added. -/
theorem left_of_add {q : Queue} {id w : Nat} (h : (q.add id).2.waiter? w = some .left) :
    q.waiter? w = some .left := by
  rw [add, waiter?_enqueue] at h
  split at h
  · simp at h
  · exact left_of_remove h

end ForwardProxy.Moderation.Queue
