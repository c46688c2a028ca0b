import ForwardProxy.Proofs.Moderation.Filing

/-!
# Entries of requests in the queue

`Entered` says whose the pending entries are, and that a request keeps its own until it takes it out,
unless the operator calls for it before. Where ids are handed out once, a request that takes an entry out
cannot hit that of another one.

* `append_of_unqueued`: a move by which nobody gets into the queue or takes itself out. An entry that is not pending
  afterwards must have been called for.
* `after_set_task`: a request moves, and the queue stays as it is.
* `after_enqueue`, `after_leave`: the two moves that change the entries of a request.

`halone`, that no other request has an entry under the id, is what the last two need. It is not a part of `Entered`,
since it cannot be kept by moves of the queue alone: it follows from ids being handed out once, which the log sees
to. So the hypothesis is met where both invariants are at hand.
-/

namespace ForwardProxy.Moderation

theorem History.Called.mono {h h' : History} (hsub : h ⊆ h') {id w : Nat} (hc : h.Called id w) :
    h'.Called id w := by
  rcases hc with ⟨s, hs, taken⟩ | discarded
  · exact .inl ⟨s, hs, hsub taken⟩
  · exact .inr (hsub discarded)

namespace Gate

/-- The id under which request `n` has put itself into the queue, until it takes itself out. -/
def entry (g : Gate) (n : Nat) : Option Nat := g.about (fun t => t.progress.entry?) n

variable {g : Gate} {n id : Nat}

/-- Who is in the queue is recorded. -/
theorem filed_of_entry (he : g.entry n = some id) : ∃ r, g.filed n = some (id, r) := by
  obtain ⟨t, ht, hp⟩ := about_eq_some.mp he
  refine ⟨t.record, filed_eq_some.mpr ⟨t, ht, ?_, rfl⟩⟩
  cases hq : t.progress with
  | queued _ _ | waiting _ _ | leaving _ _ =>
    rw [hq] at hp
    exact hp
  | _ => simp [hq, Progress.entry?] at hp

end Gate

/-- Pending entries are those of requests, which have them until the operator calls for them. -/
structure Entered (h : History) (g : Gate) : Prop where
  owned : ∀ {id w}, (id, w) ∈ g.state.queue.pending → ∃ n, g.entry n = some id ∧ .queued n id w ∈ h
  entered : ∀ {n id}, g.entry n = some id → ∃ w, .queued n id w ∈ h
  stays : ∀ {n id w}, g.entry n = some id → .queued n id w ∈ h →
    (id, w) ∈ g.state.queue.pending ∨ h.Called id w

namespace Entered

variable {h es : History} {g after : Gate} {n id w : Nat} {t : Task}

theorem at_start {s : State} (hs : s.queue = {}) : Entered [] { state := s } where
  owned := by simp [hs]
  entered := by simp [Gate.entry, Gate.about]
  stays := by simp [Gate.entry, Gate.about]

/-- No request gets into the queue or takes itself out, and what is not pending any more has been called
for. -/
theorem append_of_unqueued (E : Entered h g) (hes : ∀ n id w, .queued n id w ∉ es) (hentry : after.entry = g.entry)
    (hsub : ∀ p ∈ after.state.queue.pending, p ∈ g.state.queue.pending)
    (hcalled : ∀ p ∈ g.state.queue.pending,
      p ∈ after.state.queue.pending ∨ History.Called es p.1 p.2) :
    Entered (h ++ es) after := by
  have queued : ∀ n id w, .queued n id w ∈ h ++ es ↔ .queued n id w ∈ h := by simp [hes]
  constructor
  all_goals simp only [queued, hentry]
  case owned => exact fun hp => E.owned (hsub _ hp)
  case entered => exact E.entered
  case stays =>
    intro n id w he hq
    rcases E.stays he hq with hp | hc
    · exact (hcalled _ hp).imp_right (.mono (List.subset_append_right h es))
    · exact .inr (hc.mono (List.subset_append_left h es))

/-- Request `n` moves without getting into the queue or out of it. -/
theorem after_set_task (E : Entered h g) {s : State} {p : Progress} (ht : g.tasks[n]? = some t)
    (hes : ∀ n id w, .queued n id w ∉ es) (hpending : s.queue.pending = g.state.queue.pending)
    (hentry : p.entry? = t.progress.entry?) :
    Entered (h ++ es) { g with state := s, tasks := g.tasks.set n { t with progress := p } } := by
  exact E.append_of_unqueued hes (Gate.about_step ht hentry) (fun p hp => hpending ▸ hp) fun p hp =>
    .inl (hpending ▸ hp)

/-- Request `n` gets into the queue, under an id that no other one has. -/
theorem after_enqueue (E : Entered h g) (hn : ∀ id w, .queued n id w ∉ h)
    (halone : ∀ m, g.entry m ≠ some id)
    (hentry : ∀ m, after.entry m = if m = n then some id else g.entry m)
    (hes : ∀ m id' w', .queued m id' w' ∈ es ↔ m = n ∧ id' = id ∧ w' = w)
    (hpending : ∀ p, p ∈ after.state.queue.pending ↔
      p = (id, w) ∨ p ∈ g.state.queue.pending ∧ p.1 ≠ id) :
    Entered (h ++ es) after := by
  have new : .queued n id w ∈ h ++ es := List.mem_append_right h ((hes n id w).mpr ⟨rfl, rfl, rfl⟩)
  have others : ∀ {m id' w'}, .queued m id' w' ∈ h → m ≠ n := by
    rintro m id' w' hq rfl
    exact hn _ _ hq
  constructor
  case owned =>
    intro id' w' hp
    rcases (hpending _).mp hp with hp | ⟨hp, -⟩
    · obtain ⟨rfl, rfl⟩ : id' = id ∧ w' = w := by simpa using hp
      exact ⟨n, by rw [hentry, if_pos rfl], new⟩
    · obtain ⟨m, he, hq⟩ := E.owned hp
      exact ⟨m, by rw [hentry, if_neg (others hq), he], List.mem_append_left es hq⟩
  case entered =>
    intro m id' he
    rw [hentry] at he
    split at he
    · rename_i hm
      obtain rfl := Option.some.inj he
      exact ⟨w, hm ▸ new⟩
    · obtain ⟨w', hq⟩ := E.entered he
      exact ⟨w', List.mem_append_left es hq⟩
  case stays =>
    intro m id' w' he hq
    rcases List.mem_append.mp hq with hq | hq
    · rw [hentry, if_neg (others hq)] at he
      rcases E.stays he hq with hp | hc
      · refine .inl ((hpending _).mpr (.inr ⟨hp, ?_⟩))
        rintro rfl
        exact halone m he
      · exact .inr (hc.mono (List.subset_append_left h es))
    · obtain ⟨-, rfl, rfl⟩ := (hes m id' w').mp hq
      exact .inl ((hpending _).mpr (.inl rfl))

/-- Request `n` takes itself out of the queue; no other one is there under its id. -/
theorem after_leave (E : Entered h g) (hn : g.entry n = some id) (halone : ∀ m, g.entry m = some id → m = n)
    (hentry : ∀ m, after.entry m = if m = n then none else g.entry m)
    (hes : ∀ m id w, .queued m id w ∉ es)
    (hpending : ∀ p, p ∈ after.state.queue.pending ↔ p ∈ g.state.queue.pending ∧ p.1 ≠ id) :
    Entered (h ++ es) after := by
  have queued : ∀ m id w, .queued m id w ∈ h ++ es ↔ .queued m id w ∈ h := by simp [hes]
  have others : ∀ {m id'}, after.entry m = some id' → m ≠ n ∧ g.entry m = some id' := by
    intro m id' he
    rw [hentry] at he
    split at he
    · simp at he
    · rename_i hm
      exact ⟨hm, he⟩
  constructor
  all_goals simp only [queued]
  case owned =>
    intro id' w' hp
    obtain ⟨hp, hid⟩ := (hpending _).mp hp
    obtain ⟨m, he, hq⟩ := E.owned hp
    have hm : m ≠ n := by
      rintro rfl
      exact hid (Option.some.inj (he.symm.trans hn))
    exact ⟨m, by rw [hentry, if_neg hm, he], hq⟩
  case entered => exact fun he => E.entered (others he).2
  case stays =>
    intro m id' w' he hq
    obtain ⟨hm, he⟩ := others he
    rcases E.stays he hq with hp | hc
    · refine .inl ((hpending _).mpr ⟨hp, ?_⟩)
      rintro rfl
      exact hm (halone m he)
    · exact .inr (hc.mono (List.subset_append_left h es))

end Entered
end ForwardProxy.Moderation
