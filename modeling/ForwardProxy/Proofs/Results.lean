import Mathlib.Logic.Basic

/-!
# Results

What it means for a series of steps to succeed that may each fail, and with what it fails: with what is wrong at the
first step that fails. `bind_eq_ok_iff` takes a success apart at a bind, so that no later proof opens the monad.

For a series of one step for each member of a list, a fault of a member is a relation `Bad x e`, and `FirstBad Bad
xs e` says that `e` is wrong with a member and nothing is with those in front of it. Then

* `foldlM_eq_error_iff`: the fold fails with `e` just when `e` is first wrong, and
* `foldlM_eq_ok`: if it succeeds, it is the fold of the steps as they are without their faults.

Both are by induction on the list with the value that is carried left general. That a step fails on account of its
member only, whatever the value carried (`fails`), is what makes the first fault a property of the list. Two errors
of one member are not excluded by the relation; a function that fails has only one.
-/

namespace ForwardProxy

variable {ε ε' α β : Type}

theorem bind_eq_ok_iff {x : Except ε α} {f : α → Except ε β} {b : β} :
    (x >>= f) = .ok b ↔ ∃ a, x = .ok a ∧ f a = .ok b := by
  cases x <;> simp [bind, Except.bind]

theorem mapError_eq_ok_iff {f : ε → ε'} {r : Except ε α} {a : α} :
    r.mapError f = .ok a ↔ r = .ok a := by
  cases r with
  | error e => exact ⟨fun h => (by cases h), fun h => (by cases h)⟩
  | ok b => exact ⟨fun h => congrArg Except.ok (Except.ok.inj h), fun h => congrArg Except.ok (Except.ok.inj h)⟩

/-! ## Going through a list -/

section Fold

variable {step : β → α → Except ε β} {next : β → α → β} {Bad : α → ε → Prop} {xs : List α} {b b' : β} {e : ε}

/-- `e` is wrong with the first member of a list with which something is wrong. -/
def FirstBad (Bad : α → ε → Prop) (xs : List α) (e : ε) : Prop :=
  ∃ front x back, xs = front ++ x :: back ∧ (∀ y ∈ front, ∀ e', ¬ Bad y e') ∧ Bad x e

theorem firstBad_nil : ¬ FirstBad Bad [] e := by
  rintro ⟨front, x, back, cut, -⟩
  simp at cut

/-- If something is wrong with the first member, that is it; else the first is further on. -/
theorem firstBad_cons {x : α} :
    FirstBad Bad (x :: xs) e ↔ Bad x e ∨ (∀ e', ¬ Bad x e') ∧ FirstBad Bad xs e := by
  constructor
  · rintro ⟨front, y, back, cut, good, bad⟩
    cases front with
    | nil =>
      obtain ⟨rfl, rfl⟩ := List.cons.inj cut
      exact .inl bad
    | cons z front =>
      obtain ⟨rfl, rfl⟩ := List.cons.inj cut
      rw [List.forall_mem_cons] at good
      exact .inr ⟨good.1, front, y, back, rfl, good.2, bad⟩
  · rintro (bad | ⟨good, front, y, back, rfl, others, bad⟩)
    · exact ⟨[], x, xs, rfl, by simp, bad⟩
    · exact ⟨x :: front, y, back, rfl, List.forall_mem_cons.mpr ⟨good, others⟩, bad⟩

theorem exists_firstBad_iff : (∃ e, FirstBad Bad xs e) ↔ ∃ x ∈ xs, ∃ e, Bad x e := by
  induction xs with
  | nil => simp [firstBad_nil]
  | cons x xs ih =>
    by_cases bad : ∃ e, Bad x e
    · obtain ⟨e, bad⟩ := bad
      exact ⟨fun _ => ⟨x, List.mem_cons_self, e, bad⟩, fun _ => ⟨e, firstBad_cons.mpr (.inl bad)⟩⟩
    · have good := not_exists.mp bad
      simp [firstBad_cons, good, ih]

theorem foldlM_eq_error_iff (fails : ∀ b x e, step b x = .error e ↔ Bad x e) :
    xs.foldlM step b = .error e ↔ FirstBad Bad xs e := by
  induction xs generalizing b with
  | nil => exact ⟨nofun, fun bad => absurd bad firstBad_nil⟩
  | cons x xs ih =>
    rw [List.foldlM_cons, firstBad_cons, ← fails b]
    cases here : step b x with
    | error e' =>
      have bad := (fails b x e').mp here
      have witnessed : ¬ ∀ e'', ¬ Bad x e'' := fun good => good e' bad
      simp [bind, Except.bind, witnessed]
    | ok c =>
      have good : ∀ e', ¬ Bad x e' := fun e' bad => nomatch here.symm.trans ((fails b x e').mpr bad)
      simp [bind, Except.bind, ih, good]

theorem foldlM_eq_ok (succeeds : ∀ b x b', step b x = .ok b' → b' = next b x) (h : xs.foldlM step b = .ok b') :
    b' = xs.foldl next b := by
  induction xs generalizing b with
  | nil => exact (Except.ok.inj h).symm
  | cons x xs ih =>
    rw [List.foldlM_cons, bind_eq_ok_iff] at h
    obtain ⟨c, here, rest⟩ := h
    rw [List.foldl_cons, ← succeeds b x c here]
    exact ih rest

end Fold

end ForwardProxy
