import ForwardProxy.Moderation.SharedQueue
import ForwardProxy.Proofs.Moderation.Queue
import Mathlib.Data.List.Perm.Basic

/-!
# The balance of signals

`Balanced` compares a queue with its history: each signal that has been added is counted once, either
in the queue or under way or among the events that use it up. A move adds a signal, takes some out, uses
one, or has a waiter go away, and for each of these there is a lemma that the balance is kept. A signal is
used when it is thrown away and when it is sent.

* `after_use`: a signal is used. Where it was before, pending or under way, is in the hypothesis `hheld`, an equation
  of counts, so `after_discard` and `after_send` are cases of it.
* `after_enqueue`, `after_add`: a signal is added.
* `after_take`, with the cases `after_takeOne` and `after_takeAll`: signals go from the queue to those under way.
* `after_leave`: a waiter goes away.
* `after_move`, `of_run`: every move, and by induction every run.

## Why the signals are counted

A history may hold one event twice, and two signals may be under way to one waiter as far as the types go. That
neither happens is said by numbers: `placed` is an equation between how often a signal is found in each of the places
and how often it has been added, and `numbered` says that the latter is one for each waiter there is. An equation is
kept by a move without cases, while statements that something is there, or is not, would need one for each pair of
places.

`told` compares a waiter with what the history says of it. That it has gone away counts before anything else, and
then that its signal has reached it.
-/

namespace ForwardProxy.Moderation

/-! ## Entries, counted -/

namespace Queue

theorem insertEntry_perm (e : Nat × Nat) (ps : List (Nat × Nat)) :
    (insertEntry e ps).Perm (e :: ps) := by
  induction ps with
  | nil => exact .refl _
  | cons p ps ih =>
    simp only [insertEntry]
    split
    · exact (ih.cons p).trans (.swap e p ps)
    · exact .refl _

/-- In an ascending list an id is found once. -/
theorem filter_id_eq {ps : List (Nat × Nat)} (h : ps.Pairwise fun a b => a.1 < b.1) {e : Nat × Nat}
    (he : e ∈ ps) : ps.filter (fun p => p.1 = e.1) = [e] := by
  induction ps with
  | nil => cases he
  | cons p ps ih =>
    obtain ⟨hp, hps⟩ := List.pairwise_cons.mp h
    rcases List.mem_cons.mp he with rfl | he
    · have none_left : ps.filter (fun p => p.1 = e.1) = [] := by
        refine List.filter_eq_nil_iff.mpr fun p hmem => ?_
        have := hp p hmem
        simp only [decide_eq_true_eq]
        omega
      rw [List.filter_cons_of_pos (by simp), none_left]
    · have hne : p.1 ≠ e.1 := Nat.ne_of_lt (hp e he)
      rw [List.filter_cons_of_neg (by simpa using hne), ih hps he]

/-- What is pending is the entry under an id and the entries under other ids. -/
theorem Orderly.perm_forget {q : Queue} (hq : q.Orderly) {id w : Nat} (hf : q.find? id = some w) :
    ((id, w) :: (q.forget id).pending).Perm q.pending := by
  have split := List.filter_append_perm (fun p : Nat × Nat => p.1 = id) q.pending
  rw [filter_id_eq hq.ids (hq.find?_eq_some_iff.mp hf)] at split
  simpa [Queue.forget] using split

theorem forget_of_find?_none {q : Queue} {id : Nat} (hf : q.find? id = none) : q.forget id = q := by
  have all : q.pending.filter (fun p => p.1 ≠ id) = q.pending := by
    simpa using find?_eq_none_iff.mp hf
  rw [forget, all]

end Queue

namespace SharedQueue

/-! ## What a history says -/

namespace History

variable {h es : History} {v w id : Nat}

@[simp] theorem additions_append : (h ++ es).additions w = h.additions w + es.additions w :=
  List.countP_append

@[simp] theorem releases_append : (h ++ es).releases w = h.releases w + es.releases w :=
  List.countP_append

@[simp] theorem discards_append : (h ++ es).discards w = h.discards w + es.discards w :=
  List.countP_append

theorem additions_singleton (e : Event) : additions [e] w = if e.adds w then 1 else 0 := by
  simp [additions, List.countP_cons]

theorem releases_singleton (e : Event) : releases [e] w = if e.releases w then 1 else 0 := by
  simp [releases, List.countP_cons]

theorem discards_singleton (e : Event) : discards [e] w = if e.discards w then 1 else 0 := by
  simp [discards, List.countP_cons]

/-- The use of a signal is counted once, for its waiter. -/
theorem uses_singleton {e : Event} {x : Signal} (he : e.signal? = some x) :
    releases [e] v + discards [e] v = if x.waiter = v then 1 else 0 := by
  cases e with
  | discarded z =>
    obtain rfl := Option.some.inj he
    simp [releases_singleton, discards_singleton, Event.releases, Event.discards]
  | sent z received =>
    obtain rfl := Option.some.inj he
    cases received <;>
      simp [releases_singleton, discards_singleton, Event.releases, Event.discards]
  | _ => cases he

/-- A waiter is told nothing by events that are not about it. -/
theorem told_append (hl : .left w ∉ es) (hr : es.releases w = 0) (hd : es.discards w = 0) :
    (h ++ es).told w = h.told w := by
  simp [told, hl, hr, hd]

/-- A waiter whose signal has not been used waits, unless it has gone away. -/
theorem told_of_unused (hr : h.releases w = 0) (hd : h.discards w = 0) :
    h.told w = h.hearing w .waiting := by
  simp [told, hearing, hr, hd]

/-- A waiter that waits is told when its signal is thrown away. -/
theorem told_discarded {x : Signal} (hr : h.releases x.waiter = 0) (hd : h.discards x.waiter = 0) :
    (h ++ [Event.discarded x]).told v =
      if v = x.waiter ∧ h.told x.waiter = .waiting then .dropped else h.told v := by
  by_cases hv : v = x.waiter
  · subst hv
    by_cases hl : .left x.waiter ∈ h <;>
      simp [told, hr, hd, hl, releases_singleton, discards_singleton, Event.releases, Event.discards]
  · rw [if_neg fun hw => hv hw.1]
    exact told_append (by simp) (by simp [releases_singleton, Event.releases])
      (by simp [discards_singleton, Event.discards, Ne.symm hv])

/-- A waiter that waits is told when its signal is sent. -/
theorem told_sent {x : Signal} {received : Bool} (hr : h.releases x.waiter = 0)
    (hd : h.discards x.waiter = 0) (hb : received = (h.told x.waiter == .waiting)) :
    (h ++ [Event.sent x received]).told v =
      if v = x.waiter ∧ h.told x.waiter = .waiting then .released else h.told v := by
  by_cases hv : v = x.waiter
  · subst hv
    rw [told_of_unused hr hd] at hb ⊢
    by_cases hl : .left x.waiter ∈ h <;>
      simp [told, hearing, hr, hb, hl, releases_singleton, Event.releases]
  · rw [if_neg fun hw => hv hw.1]
    cases received <;>
      exact told_append (by simp) (by simp [releases_singleton, Event.releases, Ne.symm hv])
        (by simp [discards_singleton, Event.discards, Ne.symm hv])

@[simp] theorem latest?_added {i : Nat} :
    (h ++ [Event.added w i]).latest? id = if i = id then some w else h.latest? id := by
  by_cases hi : i = id <;> simp [latest?, Event.addedUnder, hi]

/-- What is not added does not matter to what has been added last. -/
theorem latest?_append (hes : ∀ v i, .added v i ∉ es) : (h ++ es).latest? id = h.latest? id := by
  have nothing : es.filterMap (Event.addedUnder id) = [] := by
    refine List.filterMap_eq_nil_iff.mpr fun e he => ?_
    cases e with
    | added v i => exact absurd he (hes v i)
    | _ => rfl
  simp [latest?, nothing]

theorem added_of_latest? (hw : h.latest? id = some w) : .added w id ∈ h := by
  obtain ⟨e, he, heq⟩ := List.mem_filterMap.mp (List.mem_of_getLast? hw)
  cases e with
  | added v i =>
    obtain ⟨rfl, rfl⟩ : i = id ∧ v = w := by simpa [Event.addedUnder] using heq
    exact he
  | _ => simp [Event.addedUnder] at heq

theorem additions_pos_iff : 0 < h.additions w ↔ ∃ id, .added w id ∈ h := by
  simp only [additions, List.countP_pos_iff]
  constructor
  · rintro ⟨e, he, hadds⟩
    cases e with
    | added v i =>
      obtain rfl : v = w := by simpa [Event.adds] using hadds
      exact ⟨i, he⟩
    | _ => simp [Event.adds] at hadds
  · rintro ⟨id, hid⟩
    exact ⟨_, hid, by simp [Event.adds]⟩

end History

/-! ## The balance -/

/-- Signals in the queue, under way and used are those that have been added, and waiters know what has
been done with theirs. -/
structure Balanced (h : History) (s : SharedQueue) : Prop where
  orderly : s.queue.Orderly
  numbered : ∀ w, h.additions w = if w < s.queue.waiters.length then 1 else 0
  placed : ∀ w, s.pendings w + s.sendings w + h.releases w + h.discards w = h.additions w
  told : ∀ {w}, w < s.queue.waiters.length → s.queue.waiter? w = some (h.told w)
  latest : ∀ {id w}, (id, w) ∈ s.queue.pending → h.latest? id = some w
  left_known : ∀ {w}, .left w ∈ h → w < s.queue.waiters.length
  underway_named : ∀ {x id}, x ∈ s.underway → x.named = some id → .added x.waiter id ∈ h
  used_named : ∀ {e x id}, e ∈ h → e.signal? = some x → x.named = some id → .added x.waiter id ∈ h

namespace Balanced

variable {h es : History} {q r : Queue} {u : List Signal} {id w : Nat}

theorem at_start : Balanced [] {} where
  orderly := Queue.orderly_empty
  numbered := by simp [History.additions]
  placed := by simp [pendings, sendings, History.additions, History.releases, History.discards]
  told := by simp
  latest := by simp
  left_known := by simp
  underway_named := by simp
  used_named := by simp

/-- The signal of a waiter is somewhere, once. -/
theorem placed_eq_one {s : SharedQueue} (b : Balanced h s) (hw : w < s.queue.waiters.length) :
    s.pendings w + s.sendings w + h.releases w + h.discards w = 1 := by
  rw [b.placed, b.numbered, if_pos hw]

/-- A signal that is pending or under way is that of a waiter, and it has not been used. -/
theorem unused_of_held {s : SharedQueue} (b : Balanced h s) (hw : 0 < s.pendings w + s.sendings w) :
    w < s.queue.waiters.length ∧ h.releases w = 0 ∧ h.discards w = 0 := by
  have placed := b.placed w
  have numbered := b.numbered w
  split at numbered
  · rename_i known
    exact ⟨known, by omega, by omega⟩
  · omega

/-- Signals are used in the name of the ids under which they have been added. -/
theorem used_append {s : SharedQueue} (b : Balanced h s)
    (hes : ∀ e ∈ es, ∀ x id, e.signal? = some x → x.named = some id → .added x.waiter id ∈ h)
    {e : Event} {x : Signal} (he : e ∈ h ++ es) (hx : e.signal? = some x) (hid : x.named = some id) :
    .added x.waiter id ∈ h ++ es := by
  rcases List.mem_append.mp he with he | he
  · exact List.mem_append_left _ (b.used_named he hx hid)
  · exact List.mem_append_left _ (hes e he x id hx hid)

theorem pendings_pos {s : SharedQueue} (hp : (id, w) ∈ s.queue.pending) : 0 < s.pendings w :=
  List.countP_pos_iff.mpr ⟨(id, w), hp, by simp⟩

theorem sendings_pos {s : SharedQueue} {x : Signal} (hx : x ∈ s.underway) : 0 < s.sendings x.waiter :=
  List.countP_pos_iff.mpr ⟨x, hx, by simp⟩

/-! ## What a move does to signals -/

/-- A signal that was pending or under way is used, and its waiter is told so. -/
theorem after_use (b : Balanced h ⟨q, u⟩) {x : Signal} {e : Event} {y : Waiter} {ps : List (Nat × Nat)}
    {xs : List Signal} (hps : ps.Sublist q.pending) (hxs : xs ⊆ u)
    (hheld : ∀ v, (if x.waiter = v then 1 else 0) + ps.countP (fun p => p.2 == v) +
      xs.countP (fun z => z.waiter == v) =
        q.pending.countP (fun p => p.2 == v) + u.countP fun z => z.waiter == v)
    (he : e.signal? = some x) (hnamed : ∀ id, x.named = some id → .added x.waiter id ∈ h)
    (htold : ∀ v, (h ++ [e]).told v =
      if v = x.waiter ∧ h.told x.waiter = .waiting then y else h.told v) :
    Balanced (h ++ [e]) ⟨({ q with pending := ps } : Queue).tell x.waiter y, xs⟩ := by
  have not_added : ∀ v i, .added v i ∉ [e] := by
    intro v i hmem
    obtain rfl := List.mem_singleton.mp hmem
    cases he
  have not_left : ∀ v, .left v ∉ [e] := by
    intro v hmem
    obtain rfl := List.mem_singleton.mp hmem
    cases he
  have additions : ∀ v, (h ++ [e]).additions v = h.additions v := by
    intro v
    rw [History.additions_append, History.additions_singleton]
    cases e with
    | added v i => cases he
    | _ => rfl
  have known : x.waiter < q.waiters.length := by
    refine (b.unused_of_held ?_).1
    have held := hheld x.waiter
    rw [if_pos rfl] at held
    simp only [pendings, sendings]
    omega
  constructor
  case orderly =>
    have orderly : ({ q with pending := ps } : Queue).Orderly := b.orderly.sublist hps rfl
    exact orderly.tell x.waiter y
  case numbered =>
    intro v
    rw [additions]
    simpa using b.numbered v
  case placed =>
    intro v
    have placed := b.placed v
    have held := hheld v
    have used := History.uses_singleton (v := v) he
    rw [additions, History.releases_append, History.discards_append]
    simp only [pendings, sendings, Queue.tell_pending] at placed ⊢
    omega
  case told =>
    intro v hv
    have told : ({ q with pending := ps } : Queue).waiter? x.waiter = some (h.told x.waiter) :=
      b.told known
    have before : ({ q with pending := ps } : Queue).waiter? v = some (h.told v) :=
      b.told (by simpa using hv)
    rw [htold]
    simp only [Queue.waiter?_tell, told, before, Option.some.injEq]
    split <;> rfl
  case latest =>
    intro id v hv
    rw [History.latest?_append not_added]
    exact b.latest (hps.subset (by simpa using hv))
  case left_known =>
    intro v hv
    rcases List.mem_append.mp hv with hv | hv
    · simpa using b.left_known hv
    · exact absurd hv (not_left v)
  case underway_named =>
    intro z id hz hid
    exact List.mem_append_left _ (b.underway_named (hxs hz) hid)
  case used_named =>
    refine b.used_append fun e' he' z id hz hid => ?_
    obtain rfl := List.mem_singleton.mp he'
    obtain rfl : x = z := Option.some.inj (he.symm.trans hz)
    exact hnamed id hid

/-- The signal that is pending under an id is thrown away. -/
theorem after_discard (b : Balanced h ⟨q, u⟩) (hf : q.find? id = some w) :
    Balanced (h ++ [.discarded ⟨w, some id⟩]) ⟨(q.forget id).tell w .dropped, u⟩ := by
  have hp : (id, w) ∈ q.pending := b.orderly.find?_eq_some_iff.mp hf
  have held : 0 < (⟨q, u⟩ : SharedQueue).pendings w := pendings_pos hp
  obtain ⟨-, hr, hd⟩ := b.unused_of_held (Nat.add_pos_left held _)
  refine b.after_use (x := ⟨w, some id⟩) List.filter_sublist (fun _ hx => hx) ?_ rfl ?_ fun v =>
    History.told_discarded hr hd
  · intro v
    change _ + (q.forget id).pending.countP _ + _ = _
    rw [← (b.orderly.perm_forget hf).countP_eq, List.countP_cons]
    simp only [beq_iff_eq]
    omega
  · intro id' hid
    obtain rfl : id = id' := Option.some.inj hid
    exact History.added_of_latest? (b.latest hp)

/-- What is pending under an id is removed, if there is something. -/
theorem after_remove (b : Balanced h ⟨q, u⟩) (id : Nat) :
    Balanced (h ++ (q.signals id).map .discarded) ⟨(q.remove id).2, u⟩ := by
  cases hf : q.find? id with
  | none => simpa [Queue.signals, hf, Queue.remove_of_find?_none hf] using b
  | some w => simpa [Queue.signals, hf, Queue.remove_of_find? hf] using b.after_discard hf

/-- A signal is added under a free id. -/
theorem after_enqueue (b : Balanced h ⟨q, u⟩) (hf : q.find? id = none) :
    Balanced (h ++ [.added q.waiters.length id]) ⟨(q.enqueue id).2, u⟩ := by
  have length : (q.enqueue id).2.waiters.length = q.waiters.length + 1 := by simp [Queue.enqueue]
  have counted : ∀ v, (q.enqueue id).2.pending.countP (fun p => p.2 == v) =
      q.pending.countP (fun p => p.2 == v) + if q.waiters.length = v then 1 else 0 := by
    intro v
    have perm : (q.enqueue id).2.pending.Perm ((id, q.waiters.length) :: q.pending) :=
      Queue.insertEntry_perm _ _
    rw [perm.countP_eq, List.countP_cons]
    simp
  constructor
  case orderly => exact b.orderly.enqueue hf
  case numbered =>
    intro v
    have numbered := b.numbered v
    simp only [length]
    by_cases hv : q.waiters.length = v
    · subst hv
      simpa [History.additions_singleton, Event.adds] using numbered
    · have before : v < q.waiters.length + 1 ↔ v < q.waiters.length := by omega
      simp only [before, ← numbered]
      simp [History.additions_singleton, Event.adds, hv]
  case placed =>
    intro v
    have placed := b.placed v
    have counted := counted v
    by_cases hv : q.waiters.length = v <;>
      simp [pendings, sendings, hv, History.releases_singleton, History.discards_singleton,
        History.additions_singleton, Event.releases, Event.discards, Event.adds]
        at placed counted ⊢ <;> omega
  case told =>
    intro v hv
    have quiet : (h ++ [Event.added q.waiters.length id]).told v = h.told v :=
      History.told_append (by simp) rfl rfl
    rw [Queue.waiter?_enqueue, quiet]
    split
    · rename_i hv
      have placed := b.placed v
      have fresh : h.additions v = 0 := by
        rw [b.numbered v, if_neg (by simp [hv])]
      have here : .left v ∉ h := fun hl => Nat.lt_irrefl _ (hv ▸ b.left_known hl)
      rw [History.told_of_unused (by omega) (by omega), History.hearing, if_neg here]
    · exact b.told (w := v) (by simp only at hv ⊢; omega)
  case latest =>
    intro id' v hv
    rw [History.latest?_added]
    rcases Queue.mem_insertEntry.mp hv with hv | hv
    · obtain ⟨rfl, rfl⟩ : id' = id ∧ v = q.waiters.length := by simpa using hv
      exact if_pos rfl
    · rw [if_neg fun hid => Queue.find?_eq_none_iff.mp hf _ hv hid.symm]
      exact b.latest hv
  case left_known =>
    intro v hv
    have := b.left_known (w := v) (by simpa using hv)
    simp only [length] at this ⊢
    omega
  case underway_named =>
    intro x id' hx hid
    exact List.mem_append_left _ (b.underway_named hx hid)
  case used_named => exact b.used_append (by simp [Event.signal?])

/-- A signal is added under an id; one that was pending under it is thrown away. -/
theorem after_add (b : Balanced h ⟨q, u⟩) (id : Nat) :
    Balanced (h ++ ((q.signals id).map .discarded ++ [.added (q.add id).1 id]))
      ⟨(q.add id).2, u⟩ := by
  rw [← List.append_assoc]
  exact (b.after_remove id).after_enqueue (q.find?_remove id)

/-- Some signals are taken out of the queue. -/
theorem after_take (b : Balanced h ⟨q, u⟩) {ps : List (Nat × Nat)} {xs : List Signal}
    (hps : ps.Sublist q.pending)
    (hcount : ∀ v, ps.countP (fun p => p.2 == v) + xs.countP (fun x => x.waiter == v) =
      q.pending.countP fun p => p.2 == v)
    (hxs : ∀ x ∈ xs, ∀ id, x.named = some id → (id, x.waiter) ∈ q.pending) :
    Balanced h ⟨{ q with pending := ps }, u ++ xs⟩ where
  orderly := b.orderly.sublist hps rfl
  numbered := b.numbered
  placed := by
    intro v
    have placed := b.placed v
    have hcount := hcount v
    simp only [pendings, sendings, List.countP_append] at placed ⊢
    omega
  told := b.told
  latest hp := b.latest (hps.subset hp)
  left_known := b.left_known
  underway_named := by
    intro x id hx hid
    rcases List.mem_append.mp hx with hx | hx
    · exact b.underway_named hx hid
    · exact History.added_of_latest? (b.latest (hxs x hx id hid))
  used_named := b.used_named

/-- What is pending under an id is taken out, if there is something. -/
theorem after_takeOne (b : Balanced h ⟨q, u⟩) (id : Nat) :
    Balanced h ⟨q.forget id, u ++ q.signals id⟩ := by
  refine b.after_take List.filter_sublist ?_ ?_
  · intro v
    change (q.forget id).pending.countP _ + _ = _
    cases hf : q.find? id with
    | none =>
      rw [Queue.forget_of_find?_none hf]
      simp [Queue.signals, hf]
    | some w =>
      rw [← (b.orderly.perm_forget hf).countP_eq, List.countP_cons]
      simp [Queue.signals, hf, List.countP_cons]
  · intro x hx id' hid
    obtain ⟨w, hw, rfl⟩ : ∃ w, q.find? id = some w ∧ (⟨w, some id⟩ : Signal) = x := by
      simpa [Queue.signals] using hx
    obtain rfl : id = id' := Option.some.inj hid
    exact b.orderly.find?_eq_some_iff.mp hw

/-- All signals are taken out. -/
theorem after_takeAll (b : Balanced h ⟨q, u⟩) :
    Balanced h ⟨{ q with pending := [] }, u ++ q.allSignals⟩ := by
  refine b.after_take (List.nil_sublist _) ?_ ?_
  · intro v
    simp [Queue.allSignals, List.countP_map, Function.comp_def]
  · intro x hx id hid
    obtain ⟨p, -, rfl⟩ := List.mem_map.mp hx
    cases hid

/-- A signal that is under way is sent. -/
theorem after_send (b : Balanced h ⟨q, u⟩) {k : Nat} {x : Signal} (hk : u[k]? = some x) :
    Balanced (h ++ [.sent x (q.waiter? x.waiter == some .waiting)])
      ⟨q.tell x.waiter .released, u.eraseIdx k⟩ := by
  have hx : x ∈ u := List.mem_of_getElem? hk
  obtain ⟨known, hr, hd⟩ := b.unused_of_held (Nat.add_pos_right _ (sendings_pos hx))
  have received : (q.waiter? x.waiter == some .waiting) = (h.told x.waiter == .waiting) := by
    have told : q.waiter? x.waiter = some (h.told x.waiter) := b.told known
    rw [told]
    rfl
  refine b.after_use (List.Sublist.refl q.pending) (fun _ => List.mem_of_mem_eraseIdx) ?_ rfl
    (fun _ => b.underway_named hx) fun v => History.told_sent hr hd received
  intro v
  obtain ⟨hlt, rfl⟩ := List.getElem?_eq_some_iff.mp hk
  have perm : (u[k] :: u.eraseIdx k).Perm u := List.getElem_cons_eraseIdx_perm hlt
  rw [← perm.countP_eq, List.countP_cons]
  simp only [beq_iff_eq]
  omega

/-- A waiter goes away. -/
theorem after_leave (b : Balanced h ⟨q, u⟩) (w : Nat) :
    Balanced (h ++ if w < q.waiters.length then [.left w] else []) ⟨q.leave w, u⟩ := by
  by_cases hw : w < q.waiters.length
  case neg => simpa [Queue.leave, hw] using b
  rw [if_pos hw]
  constructor
  case orderly => exact b.orderly.sublist (by simp) (by simp)
  case numbered =>
    intro v
    simpa [History.additions_singleton, Event.adds] using b.numbered v
  case placed =>
    intro v
    have placed := b.placed v
    simpa [pendings, sendings, History.releases_singleton, History.discards_singleton,
      History.additions_singleton, Event.releases, Event.discards, Event.adds] using placed
  case told =>
    intro v hv
    have before : q.waiter? v = some (h.told v) := b.told (by simpa using hv)
    rw [Queue.waiter?_leave, before]
    by_cases hvw : v = w
    · subst hvw
      simp [hw, History.told]
    · rw [if_neg fun hvw' => hvw hvw'.1, History.told_append (by simp [hvw]) rfl rfl]
  case latest =>
    intro id v hv
    rw [History.latest?_append (by simp)]
    exact b.latest (by simpa using hv)
  case left_known =>
    intro v hv
    rcases List.mem_append.mp hv with hv | hv
    · simpa using b.left_known hv
    · obtain rfl : v = w := by simpa using hv
      simpa using hw
  case underway_named =>
    intro x id hx hid
    exact List.mem_append_left _ (b.underway_named hx hid)
  case used_named => exact b.used_append (by simp [Event.signal?])

/-! ## Moves and runs -/

/-- A move keeps the balance. -/
theorem after_move {s after : SharedQueue} (b : Balanced h s) {m : Move} (hm : s.move? m = some after) :
    Balanced (h ++ s.shows m) after := by
  cases m with
  | add id =>
    obtain rfl := Option.some.inj hm
    exact b.after_add id
  | remove id =>
    obtain rfl := Option.some.inj hm
    exact b.after_remove id
  | take id =>
    obtain rfl := Option.some.inj hm
    simpa [shows] using b.after_takeOne id
  | takeAll =>
    obtain rfl := Option.some.inj hm
    simpa [shows] using b.after_takeAll
  | send k =>
    obtain ⟨x, hk, e⟩ := Option.bind_eq_some_iff.mp hm
    obtain rfl := Option.some.inj e
    simpa [shows, hk] using b.after_send hk
  | leave w =>
    obtain rfl := Option.some.inj hm
    exact b.after_leave w

/-- A run from the empty queue is balanced, by induction on its moves. -/
theorem of_run {s : SharedQueue} (r : system.Run {} h s) : Balanced h s := by
  induction r with
  | start => exact at_start
  | move m _ hm b => exact b.after_move hm

end Balanced
end SharedQueue
end ForwardProxy.Moderation
