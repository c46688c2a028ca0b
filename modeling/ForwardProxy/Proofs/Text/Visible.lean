import ForwardProxy.Proofs.Lists
import ForwardProxy.Text.Ascii
import Mathlib.Data.List.Basic

/-!
# Visible characters

A text of visible characters can stand on a line of a message head, between the blanks: none of its characters is a
control character or a blank. Letters and digits are visible, and so is every number as it is written, in base ten or
sixteen.

Each class of characters is given by its codes, and the lemmas `toNat_of_isLetter`, `toNat_of_isDigit` and
`toNat_of_isTokenChar` say between which codes it lies, so that what follows is arithmetic. Characters above ASCII
count as visible here: a head carries them as bytes above 127, which end no line.

`forall_mem_intercalate` is about any property of characters, for texts that are put together from parts and a
separator.
-/

namespace ForwardProxy.Text

/-- A character that is seen: none of the controls and blanks of ASCII. -/
def IsVisibleChar (c : Char) : Prop := 32 < c.toNat ∧ c.toNat ≠ 127

instance (c : Char) : Decidable (IsVisibleChar c) := inferInstanceAs (Decidable (_ ∧ _))

variable {c : Char}

theorem toNat_of_isLetter (h : isLetter c = true) : 65 ≤ c.toNat ∧ c.toNat ≤ 122 := by
  have between {a b : Char} (h : a ≤ c ∧ c ≤ b) : a.toNat ≤ c.toNat ∧ c.toNat ≤ b.toNat := h
  simp only [isLetter, Bool.or_eq_true, Bool.and_eq_true, decide_eq_true_eq] at h
  rcases h with small | capital
  · have : 97 ≤ c.toNat ∧ c.toNat ≤ 122 := between small
    omega
  · have : 65 ≤ c.toNat ∧ c.toNat ≤ 90 := between capital
    omega

theorem toNat_of_isDigit (h : isDigit c = true) : 48 ≤ c.toNat ∧ c.toNat ≤ 57 := by
  simp only [isDigit, Bool.and_eq_true, decide_eq_true_eq] at h
  exact h

theorem isDigit_eq (c : Char) : isDigit c = c.isDigit := by
  simp [isDigit, Char.isDigit, Char.le_def]

theorem lowerChar_eq_toLower (c : Char) : lowerChar c = c.toLower := by
  by_cases capital : 'A' ≤ c ∧ c ≤ 'Z'
  · have letters : ∀ n : Fin 26, lowerChar (Char.ofNat (65 + n.val)) = (Char.ofNat (65 + n.val)).toLower := by decide
    have bounds : 65 ≤ c.toNat ∧ c.toNat ≤ 90 := capital
    have code : 65 + (c.toNat - 65) = c.toNat := by omega
    simpa [code, Char.ofNat_toNat] using letters ⟨c.toNat - 65, by omega⟩
  · have other : ¬ (c.val ≥ 'A'.val ∧ c.val ≤ 'Z'.val) := capital
    have same : c.toLower = c := dif_neg other
    rw [lowerChar, if_neg capital, same]

theorem isLetter_of_lowerChar (h : isLetter (lowerChar c) = true) : isLetter c = true := by
  unfold lowerChar at h
  split at h
  · rename_i capital
    simp [isLetter, capital]
  · exact h

theorem toNat_of_isTokenChar (h : isTokenChar c = true) : 32 < c.toNat ∧ c.toNat < 127 := by
  simp only [isTokenChar, Bool.or_eq_true] at h
  rcases h with ((letter | digit) | mark) | tick
  · have := toNat_of_isLetter letter
    omega
  · have := toNat_of_isDigit digit
    omega
  · have marks : ∀ d ∈ "!#$%&'*+-.^_|~".toList, 32 < d.toNat ∧ d.toNat < 127 :=
      forall_mem_of_all (by decide)
    exact marks c (List.contains_iff_mem.mp mark)
  · rw [beq_iff_eq.mp tick]
    decide

theorem isVisibleChar_of_isLetter (h : isLetter c = true) : IsVisibleChar c := by
  have := toNat_of_isLetter h
  rw [IsVisibleChar]
  omega

theorem isVisibleChar_of_isDigit (h : isDigit c = true) : IsVisibleChar c := by
  have := toNat_of_isDigit h
  rw [IsVisibleChar]
  omega

theorem isDigit_of_mem_toString {n : Nat} (h : c ∈ (toString n).toList) : isDigit c = true := by
  rw [Nat.toString_eq_repr, Nat.repr_eq_ofList_toDigits, String.toList_ofList] at h
  exact (isDigit_eq c).trans (Nat.isDigit_of_mem_toDigits (by decide) (by decide) h)

theorem isVisibleChar_of_mem_toString {n : Nat} (h : c ∈ (toString n).toList) : IsVisibleChar c :=
  isVisibleChar_of_isDigit (isDigit_of_mem_toString h)

theorem isVisibleChar_of_mem_toDigits {n : Nat} (h : c ∈ Nat.toDigits 16 n) : IsVisibleChar c := by
  have digit : ∀ d : Fin 16, IsVisibleChar (Nat.digitChar d.val) := by decide
  induction n using Nat.strongRecOn with
  | _ n ih =>
    rw [Nat.toDigits_eq_if (by decide)] at h
    split at h
    · rename_i small
      rw [List.mem_singleton.mp h]
      exact digit ⟨n, small⟩
    · rw [List.mem_append, List.mem_singleton] at h
      rcases h with front | rfl
      · exact ih (n / 16) (by omega) front
      · exact digit ⟨n % 16, Nat.mod_lt _ (by decide)⟩

/-- What holds of the characters of all parts and of the separator holds of those of the whole. -/
theorem forall_mem_intercalate {P : Char → Prop} {sep : String} {parts : List String} (hsep : ∀ c ∈ sep.toList, P c)
    (hparts : ∀ part ∈ parts, ∀ c ∈ part.toList, P c) : ∀ c ∈ (String.intercalate sep parts).toList, P c := by
  rw [String.toList_intercalate]
  induction parts with
  | nil => simp
  | cons part parts ih =>
    obtain ⟨first, others⟩ := List.forall_mem_cons.mp hparts
    cases parts with
    | nil => simpa using first
    | cons next parts =>
      rw [List.map_cons, List.map_cons, List.intercalate_cons_cons]
      simp only [List.forall_mem_append]
      exact ⟨⟨first, hsep⟩, ih others⟩

end ForwardProxy.Text
