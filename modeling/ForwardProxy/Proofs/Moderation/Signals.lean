import ForwardProxy.Moderation.History
import ForwardProxy.Proofs.Moderation.Queue

/-!
# Release signals

Every request in the queue has a signal of its own. The signal is pending, or it has been taken and
is under way or sent, or it has been thrown away, and it never goes from one of the last two to the
other. `Accounted` ties the places in which a signal can be to the history. A move does one of five
things to signals, and for each of them there is a lemma that the accounts stay in order.

* `append_of_quiet`: nothing happens to any signal. All moves that are not about signals are this one.
* `after_discard`, and from it `after_remove`: the signal under an id is thrown away.
* `after_enqueue`, and with the former `after_add`: a new signal is pending.
* `after_take`, with its two cases `after_takeOne` and `after_takeAll`: signals are taken, by an approval or a flush.
* `after_deliver`: a signal that is under way is sent.

`exclusive` is what the whole is for: no signal is both taken and thrown away. It is kept because a pending signal is
untouched (`pending_untouched`), and only pending signals are taken or thrown away. `waiting` says the converse of a
waiter: as long as it waits, its signal is pending or under way, so it has not been forgotten.

Signals are named by their waiters, which are never given out twice, and not by ids, which may be.
-/

namespace ForwardProxy.Moderation

/-- Nothing has been done yet with the signal of a waiter. -/
def History.Untouched (h : History) (w : Nat) : Prop :=
  ∀ s : Signal, s.waiter = w → .taken s ∉ h ∧ .discarded s ∉ h

/-- No event of the history is about a signal. -/
structure History.Quiet (h : History) : Prop where
  queued : ∀ n id w, .queued n id w ∉ h
  taken : ∀ s, .taken s ∉ h
  sent : ∀ s received, .sent s received ∉ h
  discarded : ∀ s, .discarded s ∉ h

/-- The signals in a queue and those under way are what the history says of them. -/
structure Accounted (h : History) (q : Queue) (underway : List Signal) : Prop where
  orderly : q.Orderly
  queued_known : ∀ {n id w}, .queued n id w ∈ h → w < q.waiters.length
  owner : ∀ {n id n' id' w}, .queued n id w ∈ h → .queued n' id' w ∈ h → n = n' ∧ id = id'
  taken_queued : ∀ {s : Signal}, .taken s ∈ h →
    ∃ n id, .queued n id s.waiter ∈ h ∧ (s.named = none ∨ s.named = some id)
  discarded_queued : ∀ {s : Signal}, .discarded s ∈ h → ∃ n id, .queued n id s.waiter ∈ h
  sent_taken : ∀ {s received}, .sent s received ∈ h → .taken s ∈ h
  exclusive : ∀ {s s' : Signal}, .taken s ∈ h → .discarded s' ∈ h → s.waiter ≠ s'.waiter
  pending_queued : ∀ {p}, p ∈ q.pending → ∃ n, .queued n p.1 p.2 ∈ h
  pending_untouched : ∀ {p}, p ∈ q.pending → h.Untouched p.2
  underway_taken : ∀ {s}, s ∈ underway → .taken s ∈ h
  waiting : ∀ {w}, q.waiter? w = some .waiting →
    (∃ p ∈ q.pending, p.2 = w) ∨ ∃ s ∈ underway, s.waiter = w
  released : ∀ {w}, q.waiter? w = some .released → ∃ s, s.waiter = w ∧ .sent s true ∈ h
  dropped : ∀ {w}, q.waiter? w = some .dropped → ∃ s, s.waiter = w ∧ .discarded s ∈ h

namespace Accounted

variable {h es : History} {q r : Queue} {u : List Signal}

theorem at_start : Accounted [] {} [] where
  orderly := Queue.orderly_empty
  queued_known := by simp
  owner := by simp
  taken_queued := by simp
  discarded_queued := by simp
  sent_taken := by simp
  exclusive := by simp
  pending_queued := by simp
  pending_untouched := by simp
  underway_taken := by simp
  waiting := by simp [Queue.waiter?]
  released := by simp [Queue.waiter?]
  dropped := by simp [Queue.waiter?]

/-- A waiter whose signal is pending has been told nothing: it waits, unless it has gone away. -/
theorem waiting_of_pending (a : Accounted h q u) {id w : Nat} (hp : (id, w) ∈ q.pending) :
    q.waiter? w = some .waiting ∨ q.waiter? w = some .left := by
  obtain ⟨x, hx⟩ := Queue.exists_waiter? (a.orderly.known _ hp)
  have untouched : h.Untouched w := a.pending_untouched hp
  cases x with
  | waiting => exact .inl hx
  | left => exact .inr hx
  | released =>
    obtain ⟨s, hs, sent⟩ := a.released hx
    exact absurd (a.sent_taken sent) (untouched s hs).1
  | dropped =>
    obtain ⟨s, hs, discarded⟩ := a.dropped hx
    exact absurd discarded (untouched s hs).2

/-! ## What a move does to signals -/

/-- Nothing happens to any signal; at most, waiters go away. -/
theorem append_of_quiet (a : Accounted h q u) (hes : es.Quiet) (hp : r.pending = q.pending)
    (hl : r.waiters.length = q.waiters.length)
    (hw : ∀ {w x}, r.waiter? w = some x → x ≠ .left → q.waiter? w = some x) :
    Accounted (h ++ es) r u := by
  have queued : ∀ n id w, .queued n id w ∈ h ++ es ↔ .queued n id w ∈ h := by simp [hes.queued]
  have taken : ∀ s, .taken s ∈ h ++ es ↔ .taken s ∈ h := by simp [hes.taken]
  have sent : ∀ s b, .sent s b ∈ h ++ es ↔ .sent s b ∈ h := by simp [hes.sent]
  have discarded : ∀ s, .discarded s ∈ h ++ es ↔ .discarded s ∈ h := by simp [hes.discarded]
  constructor
  case orderly => exact a.orderly.sublist (hp ▸ .refl _) hl
  all_goals simp only [queued, taken, sent, discarded, History.Untouched, hp, hl]
  case queued_known => exact a.queued_known
  case owner => exact a.owner
  case taken_queued => exact a.taken_queued
  case discarded_queued => exact a.discarded_queued
  case sent_taken => exact a.sent_taken
  case exclusive => exact a.exclusive
  case pending_queued => exact a.pending_queued
  case pending_untouched => exact a.pending_untouched
  case underway_taken => exact a.underway_taken
  case waiting => exact fun hx => a.waiting (hw hx (by simp))
  case released => exact fun hx => a.released (hw hx (by simp))
  case dropped => exact fun hx => a.dropped (hw hx (by simp))

/-- The signal that is pending under an id is thrown away. -/
theorem after_discard (a : Accounted h q u) {id w : Nat} (hf : q.find? id = some w)
    (named : Option Nat) :
    Accounted (h ++ [.discarded ⟨w, named⟩]) ((q.forget id).tell w .dropped) u := by
  have hp : (id, w) ∈ q.pending := a.orderly.find?_eq_some_iff.mp hf
  obtain ⟨n, hn⟩ := a.pending_queued hp
  have others : ∀ p ∈ (q.forget id).pending, p ∈ q.pending ∧ p.2 ≠ w := by
    intro p h'
    obtain ⟨h', hid⟩ := Queue.mem_forget.mp h'
    exact ⟨h', fun hw => hid (congrArg Prod.fst (a.orderly.waiters _ h' _ hp hw))⟩
  constructor
  case orderly => exact (a.orderly.forget id).tell w .dropped
  case queued_known =>
    intro n id' w' h'
    simpa [Queue.forget] using a.queued_known (by simpa using h')
  case owner =>
    intro n id n' id' w' h1 h2
    exact a.owner (by simpa using h1) (by simpa using h2)
  case taken_queued =>
    intro s h'
    simpa using a.taken_queued (by simpa using h')
  case discarded_queued =>
    intro s h'
    rcases List.mem_append.mp h' with h' | h'
    · simpa using a.discarded_queued h'
    · obtain rfl : s = ⟨w, named⟩ := by simpa using h'
      exact ⟨n, id, by simpa using hn⟩
  case sent_taken =>
    intro s b h'
    simpa using a.sent_taken (by simpa using h')
  case exclusive =>
    intro s s' h1 h2
    have ht : .taken s ∈ h := by simpa using h1
    rcases List.mem_append.mp h2 with h2 | h2
    · exact a.exclusive ht h2
    · obtain rfl : s' = ⟨w, named⟩ := by simpa using h2
      exact fun hs => (a.pending_untouched hp s hs).1 ht
  case pending_queued =>
    intro p h'
    obtain ⟨m, hm⟩ := a.pending_queued (others p (by simpa using h')).1
    exact ⟨m, by simpa using hm⟩
  case pending_untouched =>
    intro p h' s hs
    obtain ⟨h', hne⟩ := others p (by simpa using h')
    obtain ⟨ht, hd⟩ := a.pending_untouched h' s hs
    refine ⟨by simpa using ht, ?_⟩
    simp only [List.mem_append, hd, List.mem_singleton, Event.discarded.injEq, false_or]
    rintro rfl
    exact hne hs.symm
  case underway_taken =>
    intro s h'
    simpa using a.underway_taken h'
  case waiting =>
    intro w' hx
    rw [Queue.waiter?_tell] at hx
    split at hx
    · simp at hx
    · rename_i hne
      rcases a.waiting hx with ⟨p, h', rfl⟩ | h'
      · refine .inl ⟨p, ?_, rfl⟩
        rw [Queue.tell_pending, Queue.mem_forget]
        refine ⟨h', fun hid => hne ?_⟩
        have hpw : p.2 = w := congrArg Prod.snd (Queue.eq_of_id_eq a.orderly.ids h' hp hid)
        exact ⟨hpw, hpw ▸ hx⟩
      · exact .inr h'
  case released =>
    intro w' hx
    rw [Queue.waiter?_tell] at hx
    split at hx
    · simp at hx
    · simpa using a.released hx
  case dropped =>
    intro w' hx
    rw [Queue.waiter?_tell] at hx
    split at hx
    · rename_i hw'
      exact ⟨⟨w, named⟩, hw'.1.symm, by simp⟩
    · obtain ⟨s, hs, hd⟩ := a.dropped hx
      exact ⟨s, hs, by simp [hd]⟩

/-- What is pending under an id is removed, if there is something. -/
theorem after_remove (a : Accounted h q u) (id : Nat) (named : Option Nat) :
    Accounted (h ++ q.thrown id named) (q.remove id).2 u := by
  cases hf : q.find? id with
  | none => simpa [Queue.thrown, hf, Queue.remove_of_find?_none hf] using a
  | some w => simpa [Queue.thrown, hf, Queue.remove_of_find? hf] using a.after_discard hf named

/-- Request `n` gets a signal, which is pending under a free id. -/
theorem after_enqueue (a : Accounted h q u) {id : Nat} (hf : q.find? id = none) (n : Nat) :
    Accounted (h ++ [.queued n id q.waiters.length]) (q.enqueue id).2 u := by
  have known : ∀ {s : Signal}, .taken s ∈ h ∨ .discarded s ∈ h → s.waiter < q.waiters.length := by
    rintro s (h' | h')
    · obtain ⟨m, id', hm, -⟩ := a.taken_queued h'
      exact a.queued_known hm
    · obtain ⟨m, id', hm⟩ := a.discarded_queued h'
      exact a.queued_known hm
  have old : ∀ {m id' w}, .queued m id' w ∈ h ++ [.queued n id q.waiters.length] →
      .queued m id' w ∈ h ∨ m = n ∧ id' = id ∧ w = q.waiters.length := by
    intro m id' w h'
    simpa using h'
  constructor
  case orderly => exact a.orderly.enqueue hf
  case queued_known =>
    intro m id' w h'
    have hl : (q.enqueue id).2.waiters.length = q.waiters.length + 1 := by simp [Queue.enqueue]
    rcases old h' with h' | ⟨-, -, rfl⟩
    · have := a.queued_known h'
      omega
    · omega
  case owner =>
    intro m id1 m' id2 w h1 h2
    rcases old h1 with o1 | ⟨rfl, rfl, hw1⟩ <;> rcases old h2 with o2 | ⟨rfl, rfl, hw2⟩
    · exact a.owner o1 o2
    · exact absurd hw2 (Nat.ne_of_lt (a.queued_known o1))
    · exact absurd hw1 (Nat.ne_of_lt (a.queued_known o2))
    · exact ⟨rfl, rfl⟩
  case taken_queued =>
    intro s h'
    obtain ⟨m, id', hm, hs⟩ := a.taken_queued (by simpa using h')
    exact ⟨m, id', by simp [hm], hs⟩
  case discarded_queued =>
    intro s h'
    obtain ⟨m, id', hm⟩ := a.discarded_queued (by simpa using h')
    exact ⟨m, id', by simp [hm]⟩
  case sent_taken =>
    intro s b h'
    simpa using a.sent_taken (by simpa using h')
  case exclusive =>
    intro s s' h1 h2
    exact a.exclusive (by simpa using h1) (by simpa using h2)
  case pending_queued =>
    intro p h'
    rcases Queue.mem_insertEntry.mp h' with rfl | h'
    · exact ⟨n, by simp⟩
    · obtain ⟨m, hm⟩ := a.pending_queued h'
      exact ⟨m, by simp [hm]⟩
  case pending_untouched =>
    intro p h' s hs
    rcases Queue.mem_insertEntry.mp h' with rfl | h'
    · have unknown : ¬ s.waiter < q.waiters.length := by simp [hs]
      exact ⟨fun h' => unknown (known (.inl (by simpa using h'))),
        fun h' => unknown (known (.inr (by simpa using h')))⟩
    · simpa using a.pending_untouched h' s hs
  case underway_taken =>
    intro s h'
    simpa using a.underway_taken h'
  case waiting =>
    intro w hx
    rw [Queue.waiter?_enqueue] at hx
    split at hx
    · rename_i hw
      exact .inl ⟨(id, q.waiters.length), Queue.mem_insertEntry.mpr (.inl rfl), hw.symm⟩
    · rcases a.waiting hx with ⟨p, h', hp⟩ | h'
      · exact .inl ⟨p, Queue.mem_insertEntry.mpr (.inr h'), hp⟩
      · exact .inr h'
  case released =>
    intro w hx
    rw [Queue.waiter?_enqueue] at hx
    split at hx
    · simp at hx
    · simpa using a.released hx
  case dropped =>
    intro w hx
    rw [Queue.waiter?_enqueue] at hx
    split at hx
    · simp at hx
    · simpa using a.dropped hx

/-- Request `n` gets a signal, which is pending under an id; a signal that was pending under it is
thrown away. -/
theorem after_add (a : Accounted h q u) (id n : Nat) :
    Accounted (h ++ (q.thrown id none ++ [.queued n id (q.add id).1])) (q.add id).2 u := by
  rw [← List.append_assoc]
  exact (a.after_remove id none).after_enqueue (q.find?_remove id) n

/-- Some signals are taken out of the queue. -/
theorem after_take (a : Accounted h q u) {ps : List (Nat × Nat)} {ss : List Signal}
    (hps : ps.Sublist q.pending)
    (hss : ∀ s ∈ ss, ∃ id, (id, s.waiter) ∈ q.pending ∧ (s.named = none ∨ s.named = some id))
    (hdis : ∀ s ∈ ss, ∀ p ∈ ps, p.2 ≠ s.waiter)
    (hall : ∀ p ∈ q.pending, p ∈ ps ∨ ∃ s ∈ ss, s.waiter = p.2) :
    Accounted (h ++ ss.map .taken) { q with pending := ps } (u ++ ss) := by
  have taken : ∀ s, .taken s ∈ h ++ ss.map .taken ↔ .taken s ∈ h ∨ s ∈ ss := by simp
  have queued : ∀ n id w, .queued n id w ∈ h ++ ss.map .taken ↔ .queued n id w ∈ h := by simp
  have sent : ∀ s b, .sent s b ∈ h ++ ss.map .taken ↔ .sent s b ∈ h := by simp
  have discarded : ∀ s, .discarded s ∈ h ++ ss.map .taken ↔ .discarded s ∈ h := by simp
  constructor
  case orderly => exact a.orderly.sublist hps rfl
  all_goals simp only [taken, queued, sent, discarded, History.Untouched]
  case queued_known => exact a.queued_known
  case owner => exact a.owner
  case taken_queued =>
    rintro s (h' | h')
    · exact a.taken_queued h'
    · obtain ⟨id, hid, hs⟩ := hss s h'
      obtain ⟨n, hn⟩ := a.pending_queued hid
      exact ⟨n, id, hn, hs⟩
  case discarded_queued => exact a.discarded_queued
  case sent_taken => exact fun h' => .inl (a.sent_taken h')
  case exclusive =>
    rintro s s' (h1 | h1) h2 hs
    · exact a.exclusive h1 h2 hs
    · obtain ⟨id, hid, -⟩ := hss s h1
      exact (a.pending_untouched hid s' hs.symm).2 h2
  case pending_queued => exact fun h' => a.pending_queued (hps.subset h')
  case pending_untouched =>
    intro p h' s hs
    obtain ⟨ht, hd⟩ := a.pending_untouched (hps.subset h') s hs
    exact ⟨not_or.mpr ⟨ht, fun hmem => hdis s hmem p h' hs.symm⟩, hd⟩
  case underway_taken =>
    intro s h'
    rcases List.mem_append.mp h' with h' | h'
    · exact .inl (a.underway_taken h')
    · exact .inr h'
  case waiting =>
    intro w hx
    rcases a.waiting hx with ⟨p, h', hp⟩ | ⟨s, h', hs⟩
    · rcases hall p h' with h' | ⟨s, h', hs⟩
      · exact .inl ⟨p, h', hp⟩
      · exact .inr ⟨s, List.mem_append_right _ h', hs.trans hp⟩
    · exact .inr ⟨s, List.mem_append_left _ h', hs⟩
  case released => exact a.released
  case dropped => exact a.dropped

/-- The signal that is pending under an id is taken out. -/
theorem after_takeOne (a : Accounted h q u) {id w : Nat} (hf : q.find? id = some w) :
    Accounted (h ++ [.taken ⟨w, some id⟩]) (q.forget id) (u ++ [⟨w, some id⟩]) := by
  have hp : (id, w) ∈ q.pending := a.orderly.find?_eq_some_iff.mp hf
  change Accounted (h ++ [(⟨w, some id⟩ : Signal)].map .taken) _ _
  refine a.after_take List.filter_sublist ?_ ?_ ?_
  · intro s hs
    obtain rfl := List.mem_singleton.mp hs
    exact ⟨id, hp, .inr rfl⟩
  · intro s hs p hp' hw
    obtain rfl := List.mem_singleton.mp hs
    obtain ⟨hp', hid⟩ := Queue.mem_forget.mp hp'
    exact hid (congrArg Prod.fst (a.orderly.waiters _ hp' _ hp hw))
  · intro p hp'
    by_cases hid : p.1 = id
    · have hpw : p = (id, w) := Queue.eq_of_id_eq a.orderly.ids hp' hp hid
      exact .inr ⟨⟨w, some id⟩, by simp, by rw [hpw]⟩
    · exact .inl (Queue.mem_forget.mpr ⟨hp', hid⟩)

/-- All signals are taken out. -/
theorem after_takeAll (a : Accounted h q u) :
    Accounted (h ++ q.pending.map fun p => .taken ⟨p.2, none⟩) { q with pending := [] }
      (u ++ q.pending.map fun p => ⟨p.2, none⟩) := by
  have events : (q.pending.map fun p => Event.taken ⟨p.2, none⟩) =
      (q.pending.map fun p => (⟨p.2, none⟩ : Signal)).map .taken := by
    rw [List.map_map]
    rfl
  rw [events]
  refine a.after_take (List.nil_sublist _) ?_ (by simp) ?_
  · intro s hs
    obtain ⟨p, hp, rfl⟩ := List.mem_map.mp hs
    exact ⟨p.1, hp, .inl rfl⟩
  · intro p hp
    exact .inr ⟨⟨p.2, none⟩, List.mem_map.mpr ⟨p, hp, rfl⟩, rfl⟩

/-- A signal that is under way is sent. -/
theorem after_deliver (a : Accounted h q u) {k : Nat} {s : Signal} (hk : u[k]? = some s) :
    Accounted (h ++ [.sent s (q.waiter? s.waiter == some .waiting)])
      (q.tell s.waiter .released) (u.eraseIdx k) := by
  have hs : s ∈ u := List.mem_of_getElem? hk
  have others : ∀ {s' : Signal}, s' ∈ u → s'.waiter ≠ s.waiter → s' ∈ u.eraseIdx k := by
    intro s' h' hne
    obtain ⟨i, hi⟩ := List.mem_iff_getElem?.mp h'
    refine List.mem_eraseIdx_iff_getElem?.mpr ⟨i, ?_, hi⟩
    rintro rfl
    exact hne (congrArg Signal.waiter (Option.some.inj (hi.symm.trans hk)))
  constructor
  case orderly => exact a.orderly.tell _ _
  case queued_known =>
    intro n id w h'
    simpa using a.queued_known (by simpa using h')
  case owner =>
    intro n id n' id' w h1 h2
    exact a.owner (by simpa using h1) (by simpa using h2)
  case taken_queued =>
    intro s' h'
    simpa using a.taken_queued (by simpa using h')
  case discarded_queued =>
    intro s' h'
    simpa using a.discarded_queued (by simpa using h')
  case sent_taken =>
    intro s' b h'
    rcases List.mem_append.mp h' with h' | h'
    · simpa using a.sent_taken h'
    · obtain ⟨rfl, -⟩ : s' = s ∧ _ := by simpa using h'
      simpa using a.underway_taken hs
  case exclusive =>
    intro s1 s2 h1 h2
    exact a.exclusive (by simpa using h1) (by simpa using h2)
  case pending_queued =>
    intro p h'
    simpa using a.pending_queued (by simpa using h')
  case pending_untouched =>
    intro p h' s' hs'
    simpa using a.pending_untouched (by simpa using h') s' hs'
  case underway_taken =>
    intro s' h'
    simpa using a.underway_taken (List.mem_of_mem_eraseIdx h')
  case waiting =>
    intro w hx
    rw [Queue.waiter?_tell] at hx
    split at hx
    · simp at hx
    · rename_i hne
      rcases a.waiting hx with ⟨p, h', hp⟩ | ⟨s', h', hs'⟩
      · exact .inl ⟨p, by simpa using h', hp⟩
      · refine .inr ⟨s', others h' fun he => hne ?_, hs'⟩
        have hw : w = s.waiter := hs'.symm.trans he
        exact ⟨hw, hw ▸ hx⟩
  case released =>
    intro w hx
    rw [Queue.waiter?_tell] at hx
    split at hx
    · rename_i hw
      exact ⟨s, hw.1.symm, by simp [hw.2]⟩
    · obtain ⟨s', hs', hsent⟩ := a.released hx
      exact ⟨s', hs', List.mem_append_left _ hsent⟩
  case dropped =>
    intro w hx
    rw [Queue.waiter?_tell] at hx
    split at hx
    · simp at hx
    · simpa using a.dropped hx

end Accounted
end ForwardProxy.Moderation
