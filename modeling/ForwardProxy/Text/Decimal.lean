import ForwardProxy.Text.Ascii

/-!
# Decimal numbers

Ports and request ids are written as unsigned decimal numbers: an optional plus sign, then one or
more digits, leading zeros allowed, and the value below a bound. `readBelow_eq_some_iff` states
exactly which texts are read and as what.
-/

namespace ForwardProxy.Text

/-- The value of a digit. -/
def digitValue (c : Char) : Nat := c.toNat - '0'.toNat

/-- The value of a run of digits, the most significant first. -/
def digitsValue (cs : List Char) : Nat := cs.foldl (fun n c => 10 * n + digitValue c) 0

/-- One leading plus sign is dropped. -/
def dropPlus : List Char → List Char
  | '+' :: cs => cs
  | cs => cs

/-- Reads an unsigned decimal number whose value is below `bound`. -/
def readBelow (bound : Nat) (cs : List Char) : Option Nat :=
  let digits := dropPlus cs
  if !digits.isEmpty && digits.all isDigit && decide (digitsValue digits < bound) then
    some (digitsValue digits)
  else none

theorem readBelow_eq_some_iff {bound n : Nat} {cs : List Char} :
    readBelow bound cs = some n ↔
      dropPlus cs ≠ [] ∧ (∀ c ∈ dropPlus cs, isDigit c = true) ∧
        digitsValue (dropPlus cs) = n ∧ n < bound := by
  unfold readBelow
  simp only [Option.ite_none_right_eq_some, Bool.and_eq_true, Bool.not_eq_true',
    List.isEmpty_eq_false_iff, List.all_eq_true, decide_eq_true_eq, Option.some.injEq]
  constructor
  · rintro ⟨⟨⟨h₁, h₂⟩, h₃⟩, h₄⟩
    exact ⟨h₁, h₂, h₄, h₄ ▸ h₃⟩
  · rintro ⟨h₁, h₂, h₃, h₄⟩
    exact ⟨⟨⟨h₁, h₂⟩, by omega⟩, h₃⟩

/-- Reads a port: a number below 65536. -/
def readPort (cs : List Char) : Option Nat := readBelow 65536 cs

/-- Reads a request id: a number below 2^64. -/
def readId (cs : List Char) : Option Nat := readBelow 0x10000000000000000 cs

end ForwardProxy.Text
