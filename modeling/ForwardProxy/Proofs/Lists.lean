/-!
# Lists in which one place changes

Those who move (requests, waiters, connections, loaders) are kept in lists: a move changes one of them, and a
newcomer goes to the end. An invariant that speaks of every member is preserved by such a move if it is preserved
at the place that changes, and these lemmas tell which place that is.

* `set_cases`: a member of a list after a replacement is the new member at the place of the replacement, or an old
  one at another place.
* `concat_cases`: a member of a list with a new last member is an old one, or the new one at the end.
* `eq_of_concat_eq`: what stands behind all others, and nowhere else, is found at the end only.
* `forall_mem_of_all`: what is computed for every member of a list holds of every member.

The places are given by `xs[n]?`, without a bound, since the moves look their list up in the same way.
-/

namespace ForwardProxy

variable {α : Type}

/-- What is checked member by member. The type may be too large to be checked itself. -/
theorem forall_mem_of_all {xs : List α} {P : α → Prop} [DecidablePred P]
    (h : xs.all (fun x => decide (P x)) = true) : ∀ x ∈ xs, P x := by
  simpa using h

/-- What stands in a list where one member has been replaced. -/
theorem set_cases {xs : List α} {n m : Nat} {x y z : α} (hx : xs[n]? = some x)
    (hz : (xs.set n y)[m]? = some z) : (m = n ∧ z = y) ∨ (m ≠ n ∧ xs[m]? = some z) := by
  by_cases hm : m = n
  · subst hm
    rw [List.getElem?_set_self (List.getElem?_eq_some_iff.mp hx).1] at hz
    exact .inl ⟨rfl, (Option.some.inj hz).symm⟩
  · rw [List.getElem?_set_ne (Ne.symm hm)] at hz
    exact .inr ⟨hm, hz⟩

/-- What stands in a list with a new last member. -/
theorem concat_cases {xs : List α} {m : Nat} {y z : α}
    (hz : (xs ++ [y])[m]? = some z) : xs[m]? = some z ∨ (m = xs.length ∧ z = y) := by
  rcases Nat.lt_trichotomy m xs.length with hm | rfl | hm
  · exact .inl (by rwa [List.getElem?_append_left hm] at hz)
  · exact .inr ⟨rfl, by simpa using hz.symm⟩
  · simp [List.getElem?_append_right (Nat.le_of_lt hm), Nat.sub_ne_zero_of_lt hm] at hz

/-- Where the last member stands, if it does not stand anywhere else. -/
theorem eq_of_concat_eq {x : α} {xs ys zs : List α} (hx : x ∉ xs)
    (h : xs ++ [x] = ys ++ x :: zs) : ys = xs := by
  rcases List.append_eq_append_iff.mp h with ⟨as, rfl, h'⟩ | ⟨bs, rfl, h'⟩
  · have hl : as.length = 0 := by
      have := congrArg List.length h'
      simp only [List.length_append, List.length_cons, List.length_nil] at this
      omega
    rw [List.length_eq_zero_iff.mp hl, List.append_nil]
  · cases bs with
    | nil => rw [List.append_nil]
    | cons b bs =>
      obtain ⟨rfl, -⟩ := List.cons.inj h'
      exact absurd (List.mem_append_right ys List.mem_cons_self) hx

end ForwardProxy
