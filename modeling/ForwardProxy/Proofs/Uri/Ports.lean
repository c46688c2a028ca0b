import ForwardProxy.Proofs.Uri.Authorities
import ForwardProxy.Proofs.Address.TunnelTargets

/-!
# Ports of authorities

The port of an authority is looked for behind its last colon, wherever that stands. If it stands behind the host,
the text behind it is the port text; if not, it belongs to a user, who ends in an at-sign, or to an address
literal, which ends in a closing bracket, and with such a character in it the text behind the colon is no number.
So the port is the number that the port text stands for (`port?_eq`).

`exists_front` cuts an authority in front of the place where a port may stand and says that every colon before the
cut has an at-sign or a closing bracket behind it. For a bracket this needs that it is closed: brackets are opened
before they are closed (`Scan.run_nested`, by induction over the scan), so that behind an opening one the closing one
is still to come (`closing_mem`).

A port text that is no number, or too great a one, gives no port. The theorem is an equation for that reason; that it
had better be refused is not said here.
-/

namespace ForwardProxy

theorem Text.afterLast_cases {α : Type} [DecidableEq α] (sep : α) (cs : List α) :
    afterLast sep cs = cs ∨ ∃ front, cs = front ++ sep :: afterLast sep cs := by
  rw [afterLast]
  split
  · rename_i cut
    exact .inr ⟨_, (splitLast_eq_some_iff.mp cut).1⟩
  · exact .inl rfl

/-- The last separator of a text is the last of its end, if there is one. -/
theorem Text.splitLast_append {α : Type} [DecidableEq α] {sep : α} {cs front back : List α}
    (cut : splitLast sep cs = some (front, back)) (before : List α) :
    splitLast sep (before ++ cs) = some (before ++ front, back) := by
  obtain ⟨rfl, last⟩ := splitLast_eq_some_iff.mp cut
  exact splitLast_eq_some_iff.mpr ⟨by simp, last⟩

/-- A text with an at-sign or a closing bracket is no number. -/
theorem Text.readPort_eq_none {cs : List Char} {c : Char} (hc : c ∈ cs) (mark : c = '@' ∨ c = ']') :
    readPort cs = none := by
  rw [Option.eq_none_iff_forall_not_mem]
  intro port read
  rcases char_of_readPort read hc with rfl | digit
  · rcases mark with mark | mark <;> cases mark
  · rcases mark with rfl | rfl <;> exact absurd digit (by decide)

namespace Authority

namespace Scan

variable {s s' : Scan} {c : Char} {cs : List Char}

theorem step_opening (h : s.step '[' = some s') : s.opened = false := by
  have fresh := (Option.ite_none_left_eq_some.mp h).1
  rw [Bool.or_eq_true, not_or, Bool.not_eq_true] at fresh
  simpa using fresh.2

theorem step_closing (h : s.step ']' = some s') : s.opened = true := by
  have fresh := (Option.ite_none_left_eq_some.mp h).1
  rw [Bool.or_eq_true, not_or, Bool.not_eq_true'] at fresh
  simpa using fresh.1

/-- Brackets are opened before they are closed. -/
theorem step_nested (h : s.step c = some s') (nested : s.closed.toNat ≤ s.opened.toNat) :
    s'.closed.toNat ≤ s'.opened.toNat := by
  obtain ⟨opened, closed⟩ := step_brackets h
  by_cases closing : c = ']'
  · subst closing
    have open' : s.opened.toNat = 1 := by rw [step_closing h]; rfl
    have := s'.closed.toNat_le
    rw [opened]
    omega
  · rw [opened, closed, if_neg closing]
    omega

theorem run_nested (h : cs.foldlM step s = some s') (nested : s.closed.toNat ≤ s.opened.toNat) :
    s'.closed.toNat ≤ s'.opened.toNat := by
  induction cs generalizing s with
  | nil =>
    obtain rfl := Option.some.inj h
    exact nested
  | cons c cs ih =>
    rw [List.foldlM_cons] at h
    obtain ⟨s₁, first, rest⟩ := Option.bind_eq_some_iff.mp h
    exact ih rest (step_nested first nested)

end Scan

/-- An opening bracket has its closing bracket behind it. -/
theorem closing_mem {a : Authority} {front back : List Char} (h : a.text.toList = front ++ '[' :: back) :
    ']' ∈ back := by
  obtain ⟨s, scanned, ends⟩ := a.exists_run
  rw [h, List.foldlM_append] at scanned
  obtain ⟨s₁, before, scanned⟩ := Option.bind_eq_some_iff.mp scanned
  rw [List.foldlM_cons] at scanned
  obtain ⟨s₂, opening, behind⟩ := Option.bind_eq_some_iff.mp scanned
  have nested := Scan.run_nested before (Nat.le_refl _)
  obtain ⟨opened, closed⟩ := Scan.step_brackets opening
  obtain ⟨opened', closed'⟩ := Scan.run_brackets behind
  have balanced : s.opened = s.closed := by
    simp only [Scan.mayEnd, Bool.and_eq_true, beq_iff_eq] at ends
    exact ends.1.1.1
  rw [Scan.step_opening opening] at nested opened
  rw [balanced] at opened'
  simp only [Bool.toNat_false, if_true, Char.reduceEq, if_false] at nested opened closed
  exact List.count_pos_iff.mp (by omega)

/-- Where two members of different kinds stand, the one that stands last is behind the other. -/
theorem mem_of_append {c d : Char} {xs ys f b : List Char} (other : c ≠ d) (last : d ∉ ys)
    (h : xs ++ c :: ys = f ++ d :: b) : c ∈ b := by
  rcases List.append_eq_append_iff.mp h with ⟨as, rfl, h'⟩ | ⟨bs, rfl, h'⟩
  · cases as with
    | nil => exact absurd (List.cons.inj h').1 other
    | cons e as =>
      have behind := (List.cons.inj h').2
      exact absurd (behind ▸ List.mem_append_right as List.mem_cons_self) last
  · cases bs with
    | nil => exact absurd (List.cons.inj h').1.symm other
    | cons e bs => simp [(List.cons.inj h').2]

/-- In front of the place where a port may stand, what is behind a colon holds an at-sign or a closing bracket. -/
theorem exists_front (a : Authority) : ∃ front, a.text.toList = front ++ a.behindHost ∧
    ∀ f b, front = f ++ ':' :: b → ∃ c ∈ b, c = '@' ∨ c = ']' := by
  obtain ⟨user, text, sign⟩ : ∃ user, a.text.toList = user ++ Text.afterLast '@' a.text.toList ∧
      (user = [] ∨ ∃ name, user = name ++ ['@']) := by
    rcases Text.afterLast_cases '@' a.text.toList with whole | ⟨name, cut⟩
    · exact ⟨[], by rw [whole]; rfl, .inl rfl⟩
    · exact ⟨name ++ ['@'], by rw [List.append_assoc]; exact cut, .inr ⟨name, rfl⟩⟩
  rw [behindHost]
  split
  · rename_i first
    obtain ⟨back, literal⟩ := List.head?_eq_some_iff.mp first
    rw [literal] at text ⊢
    obtain ⟨inner, tail, cut, plain⟩ := List.eq_append_cons_of_mem (closing_mem text)
    have inside : ∀ c ∈ '[' :: inner, decide (c ≠ ']') = true := by
      refine List.forall_mem_cons.mpr ⟨by decide, fun c hc => decide_eq_true ?_⟩
      rintro rfl
      exact plain hc
    have behind : ('[' :: back).dropWhile (· ≠ ']') = ']' :: tail := by
      rw [cut, ← List.cons_append, List.dropWhile_append_of_pos inside, List.dropWhile_cons_of_neg (by simp)]
    refine ⟨(user ++ '[' :: inner) ++ [']'], ?_, fun f b h => ?_⟩
    · rw [behind, text, cut]
      simp
    · exact ⟨']', mem_of_append (by decide) (by simp) h, .inr rfl⟩
  · refine ⟨user ++ (Text.afterLast '@' a.text.toList).takeWhile (· ≠ ':'), ?_, fun f b h => ?_⟩
    · rw [List.append_assoc, List.takeWhile_append_dropWhile, ← text]
    · have plain : ':' ∉ (Text.afterLast '@' a.text.toList).takeWhile (· ≠ ':') := fun colon => by
        simpa using List.mem_takeWhile_imp colon
      rcases sign with rfl | ⟨name, rfl⟩
      · rw [List.nil_append] at h
        exact absurd (h ▸ List.mem_append_right f List.mem_cons_self) plain
      · rw [List.append_assoc] at h
        exact ⟨'@', mem_of_append (by decide) plain h, .inl rfl⟩

/-- The port is the number that the port text stands for, if it does. -/
theorem port?_eq (a : Authority) : a.port? = Text.readPort a.portText.toList := by
  obtain ⟨front, text, marks⟩ := a.exists_front
  cases cut : Text.splitLast ':' a.behindHost with
  | some parts =>
    obtain ⟨f, b⟩ := parts
    have whole := Text.splitLast_append cut front
    rw [← text] at whole
    simp [port?, portText, whole, cut]
  | none =>
    have unnamed : a.portText = "" := by rw [portText, cut]
    rw [unnamed, port?]
    cases whole : Text.splitLast ':' a.text.toList with
    | none => rfl
    | some parts =>
      obtain ⟨f, b⟩ := parts
      have uncut := Text.splitLast_eq_none_iff.mp cut
      have parted := (Text.splitLast_eq_some_iff.mp whole).1
      rw [text] at parted
      -- the last colon is not behind the host, so one of the two characters is behind it
      rcases List.append_eq_append_iff.mp parted with ⟨as, -, behind⟩ | ⟨bs, before, behind⟩
      · exact absurd (behind ▸ List.mem_append_right as List.mem_cons_self) uncut
      cases bs with
      | nil =>
        rw [List.nil_append] at behind
        exact absurd (behind ▸ List.mem_cons_self) uncut
      | cons d bs =>
        obtain ⟨rfl, rfl⟩ := List.cons.inj behind
        obtain ⟨c, hc, mark⟩ := marks f bs before
        exact Text.readPort_eq_none (List.mem_append_left _ hc) mark

end Authority
end ForwardProxy
