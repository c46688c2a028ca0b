import ForwardProxy.Proofs.Text.Visible
import ForwardProxy.Text.Decimal

/-!
# Numbers as they are typed

An optional plus sign, one or more digits in base ten with any number of zeros in front, and a value below a bound:
exactly such a text is read, and as that value (`readBelow_eq_some_iff_isNumeral`). A number as it is printed is one
of them (`readBelow_toString`).

`IsNumeral bound cs n` says so without the reader's order of steps: the text is `digits` behind a sign or behind
nothing. Since no digit is a plus sign, the sign that is dropped is the only one (`dropPlus_of_digits`), and a second
one makes the text unreadable. The bound is a parameter: a port has 65536, the number of a request 2 ^ 64.
-/

namespace ForwardProxy.Text

/-- A text is a number below a bound. -/
def IsNumeral (bound : Nat) (cs : List Char) (n : Nat) : Prop :=
  ∃ digits, (cs = digits ∨ cs = '+' :: digits) ∧ digits ≠ [] ∧ (∀ c ∈ digits, c.isDigit = true) ∧
    Nat.ofDigitChars 10 digits 0 = n ∧ n < bound

theorem dropPlus_cases (cs : List Char) : cs = dropPlus cs ∨ cs = '+' :: dropPlus cs := by
  unfold dropPlus
  split
  · exact .inr rfl
  · exact .inl rfl

/-- A digit in front is no plus sign. -/
theorem dropPlus_of_digits {digits : List Char} (h : ∀ c ∈ digits, c.isDigit = true) : dropPlus digits = digits := by
  unfold dropPlus
  split
  · exact absurd (h '+' List.mem_cons_self) (by decide)
  · rfl

/-- The texts that are read are the numbers below the bound. -/
theorem readBelow_eq_some_iff_isNumeral {bound n : Nat} {cs : List Char} :
    readBelow bound cs = some n ↔ IsNumeral bound cs n := by
  rw [readBelow_eq_some_iff]
  constructor
  · rintro ⟨nonempty, digits, value, small⟩
    exact ⟨dropPlus cs, dropPlus_cases cs, nonempty, fun c hc => isDigit_eq c ▸ digits c hc, value, small⟩
  · rintro ⟨digits, typed, nonempty, all, value, small⟩
    have dropped : dropPlus cs = digits := by
      rcases typed with rfl | rfl
      · exact dropPlus_of_digits all
      · rfl
    rw [dropped]
    exact ⟨nonempty, fun c hc => (isDigit_eq c).trans (all c hc), value, small⟩

theorem toList_toString_ne_nil (n : Nat) : (toString n).toList ≠ [] := by
  rw [Nat.toString_eq_repr, Nat.toList_repr]
  exact Nat.toDigits_ne_nil

/-- A number is read back from its print. -/
theorem readBelow_toString {bound n : Nat} (h : n < bound) : readBelow bound (toString n).toList = some n := by
  rw [readBelow_eq_some_iff_isNumeral, Nat.toString_eq_repr, Nat.toList_repr]
  have digits : ∀ c ∈ Nat.toDigits 10 n, c.isDigit = true := fun c hc =>
    Nat.isDigit_of_mem_toDigits (by decide) (by decide) hc
  exact ⟨Nat.toDigits 10 n, .inl rfl, Nat.toDigits_ne_nil, digits, Nat.ofDigitChars_ten_toDigits, h⟩

end ForwardProxy.Text
