import ForwardProxy.Uri
import Mathlib.Data.List.Basic

/-!
# Authorities from left to right

A scan goes over an authority once and notes what it has come across. What it has seen at the end is what stands in
the text: every bracket is counted once, so that an authority has one bracket of either kind at most. The host is
the text behind the last at-sign up to the closing bracket or to a colon, so it never holds an at-sign, and a colon
only between brackets.

* `read_eq_ok_iff`: a text is read as the authority that it is, without any change.
* `read_eq_error_iff`: any other text is refused for the fault that is found with it, which says in its own words
  what is wrong: nothing is there, a character is out of place, or the parts are.
* `Scan.run_brackets`, `Scan.plain_of_run`: what one step of the scan preserves, over a whole run. The count of the
  brackets that were noted is the count of those that were read, with the state of the start added.
* `count_brackets_le`, `plain_of_mem`: what follows of an authority, which is a text whose run has come to an end.
* `toList_host_of_opening`, `toList_host_of_name`: the host of an authority in which nobody is named, in brackets and
  as a name.

The runs are by induction on the text with the state general, since every step changes it. Nothing is said of the
colons that a scan counts: where they stand is of no use for the host, and the port is looked for from the other end
of the text.
-/

namespace ForwardProxy

namespace Text

variable {α : Type} [DecidableEq α] {sep : α} {cs : List α}

theorem notMem_afterLast (sep : α) (cs : List α) : sep ∉ afterLast sep cs := by
  rw [afterLast]
  split
  · rename_i cut
    exact (splitLast_eq_some_iff.mp cut).2
  · rename_i whole
    exact splitLast_eq_none_iff.mp whole

theorem afterLast_of_notMem (h : sep ∉ cs) : afterLast sep cs = cs := by
  rw [afterLast, splitLast_eq_none_iff.mpr h]

theorem mem_of_mem_afterLast {c : α} (h : c ∈ afterLast sep cs) : c ∈ cs := by
  rw [afterLast] at h
  split at h
  · rename_i cut
    rw [(splitLast_eq_some_iff.mp cut).1]
    simp [h]
  · exact h

theorem takeWhile_ne_append (h : sep ∉ cs) (back : List α) :
    (cs ++ back).takeWhile (· ≠ sep) = cs ++ back.takeWhile (· ≠ sep) :=
  List.takeWhile_append_of_pos fun c hc => decide_eq_true fun same : c = sep => h (same ▸ hc)

end Text

namespace Authority

@[simp] theorem ofString?_text (a : Authority) : ofString? a.text = some a := dif_pos a.whole

theorem text_of_ofString? {s : String} {a : Authority} (h : ofString? s = some a) : a.text = s := by
  rw [ofString?] at h
  obtain ⟨_, ⟨⟩⟩ := Option.dite_none_right_eq_some.mp h
  rfl

/-- A text is read as the authority that it is. -/
theorem read_eq_ok_iff {s : String} {a : Authority} : read s = .ok a ↔ a.text = s := by
  unfold read
  split
  · rw [Except.ok.injEq]
    constructor
    · rintro rfl
      rfl
    · rintro rfl
      rfl
  · rename_i fault wrong
    simp only [reduceCtorEq, false_iff]
    rintro rfl
    rw [fault?_eq_none_iff.mpr a.whole] at wrong
    cases wrong

/-- A text that is no authority is refused for what is wrong with it. -/
theorem read_eq_error_iff {s : String} {fault : Fault} : read s = .error fault ↔ fault? s.toList = some fault := by
  unfold read
  split
  · rename_i clean
    simp [clean]
  · rename_i found wrong
    simp [wrong]

-- The path is noticed only once the two colons in front of it have been found fault with.
example : fault? "site.test:80:90/path".toList = some .misplaced := by decide

namespace Scan

variable {s s' : Scan} {c : Char} {cs : List Char}

/-- A bracket is noted when it is read, and only once. -/
theorem step_brackets (h : s.step c = some s') :
    s'.opened.toNat = s.opened.toNat + (if c = '[' then 1 else 0) ∧
      s'.closed.toNat = s.closed.toNat + (if c = ']' then 1 else 0) := by
  rw [step] at h
  split at h
  · rename_i colon
    obtain ⟨-, ⟨⟩⟩ := Option.ite_none_right_eq_some.mp h
    simp [colon]
  split at h
  · rename_i opening
    obtain ⟨fresh, ⟨⟩⟩ := Option.ite_none_left_eq_some.mp h
    obtain ⟨-, unopened⟩ : s.percent = false ∧ s.opened = false := by simpa using fresh
    simp [opening, unopened]
  rename_i notOpening
  split at h
  · rename_i closing
    obtain ⟨fresh, ⟨⟩⟩ := Option.ite_none_left_eq_some.mp h
    obtain ⟨-, unclosed⟩ : s.opened = true ∧ s.closed = false := by simpa using fresh
    simp [closing, unclosed]
  rename_i notClosing
  -- no other character touches what is noted of the brackets
  have same : s'.opened = s.opened ∧ s'.closed = s.closed := by
    split at h
    · cases h
      exact ⟨rfl, rfl⟩
    split at h
    · cases h
      exact ⟨rfl, rfl⟩
    · obtain ⟨-, ⟨⟩⟩ := Option.ite_none_right_eq_some.mp h
      exact ⟨rfl, rfl⟩
  simp [same, notOpening, notClosing]

theorem run_brackets (h : cs.foldlM step s = some s') :
    s'.opened.toNat = s.opened.toNat + cs.count '[' ∧ s'.closed.toNat = s.closed.toNat + cs.count ']' := by
  induction cs generalizing s with
  | nil =>
    obtain rfl := Option.some.inj h
    simp
  | cons c cs ih =>
    rw [List.foldlM_cons] at h
    obtain ⟨s₁, first, rest⟩ := Option.bind_eq_some_iff.mp h
    obtain ⟨opened, closed⟩ := step_brackets first
    obtain ⟨opened', closed'⟩ := ih rest
    simp only [List.count_cons, beq_iff_eq]
    omega

/-- Every character that an authority may hold is a plain one or the percent sign. -/
theorem plain_of_step (h : s.step c = some s') : isPlainChar c = true ∨ c = '%' := by
  rw [step] at h
  split at h
  · rename_i colon
    exact .inl (by rw [colon]; decide)
  split at h
  · rename_i opening
    exact .inl (by rw [opening]; decide)
  split at h
  · rename_i closing
    exact .inl (by rw [closing]; decide)
  split at h
  · rename_i sign
    exact .inl (by rw [sign]; decide)
  split at h
  · rename_i percent
    exact .inr percent
  · exact .inl (Option.ite_none_right_eq_some.mp h).1

theorem plain_of_run (h : cs.foldlM step s = some s') : ∀ c ∈ cs, isPlainChar c = true ∨ c = '%' := by
  induction cs generalizing s with
  | nil => simp
  | cons c cs ih =>
    rw [List.foldlM_cons] at h
    obtain ⟨s₁, first, rest⟩ := Option.bind_eq_some_iff.mp h
    exact List.forall_mem_cons.mpr ⟨plain_of_step first, ih rest⟩

end Scan

theorem exists_run (a : Authority) : ∃ s, a.text.toList.foldlM Scan.step {} = some s ∧ s.mayEnd = true := by
  have whole := a.whole
  rw [isWhole, Bool.and_eq_true, accepts] at whole
  have accepted := whole.2
  split at accepted
  · rename_i s scanned
    exact ⟨s, scanned, accepted⟩
  · cases accepted

theorem plain_of_mem (a : Authority) {c : Char} (hc : c ∈ a.text.toList) : isPlainChar c = true ∨ c = '%' := by
  obtain ⟨s, scanned, -⟩ := a.exists_run
  exact Scan.plain_of_run scanned c hc

/-- An authority has one pair of brackets at most. -/
theorem count_brackets_le (a : Authority) : a.text.toList.count '[' ≤ 1 ∧ a.text.toList.count ']' ≤ 1 := by
  obtain ⟨s, scanned, -⟩ := a.exists_run
  obtain ⟨opened, closed⟩ := Scan.run_brackets scanned
  have := s.opened.toNat_le
  have := s.closed.toNat_le
  omega

/-! ## Hosts -/

theorem toList_host (a : Authority) : a.host.toList =
    if (Text.afterLast '@' a.text.toList).head? = some '['
      then (Text.afterLast '@' a.text.toList).takeWhile (· ≠ ']') ++ [']']
      else (Text.afterLast '@' a.text.toList).takeWhile (· ≠ ':') := by
  rw [host]
  split <;> rw [String.toList_ofList]

theorem mem_of_mem_host (a : Authority) {c : Char} (h : c ∈ a.host.toList) : c ∈ a.text.toList ∨ c = ']' := by
  have behind {p : Char → Bool} (h : c ∈ (Text.afterLast '@' a.text.toList).takeWhile p) : c ∈ a.text.toList :=
    Text.mem_of_mem_afterLast ((List.takeWhile_prefix _).subset h)
  rw [toList_host] at h
  split at h
  · rw [List.mem_append, List.mem_singleton] at h
    exact h.imp_left behind
  · exact .inl (behind h)

theorem at_notMem_host (a : Authority) : '@' ∉ a.host.toList := by
  have behind (p : Char → Bool) : '@' ∉ (Text.afterLast '@' a.text.toList).takeWhile p :=
    fun sign => Text.notMem_afterLast '@' a.text.toList ((List.takeWhile_prefix _).subset sign)
  rw [toList_host]
  split
  · simp [behind]
  · exact behind _

variable {a : Authority}

theorem toList_host_of_opening (alone : '@' ∉ a.text.toList) (first : a.text.toList.head? = some '[') :
    a.host.toList = a.text.toList.takeWhile (· ≠ ']') ++ [']'] := by
  rw [toList_host, Text.afterLast_of_notMem alone, if_pos first]

theorem toList_host_of_name (alone : '@' ∉ a.text.toList) (first : a.text.toList.head? ≠ some '[') :
    a.host.toList = a.text.toList.takeWhile (· ≠ ':') := by
  rw [toList_host, Text.afterLast_of_notMem alone, if_neg first]

end Authority
end ForwardProxy
