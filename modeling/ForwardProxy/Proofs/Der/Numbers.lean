import ForwardProxy.Proofs.Der.Items
import Mathlib.Data.List.Induction

/-!
# Whole numbers as bytes

The bytes of a number do not begin with a zero, and every byte string that does not is that of a number
(`numberBytes_number`). From this the content of a whole number is determined as well: where it is read, it is the
one that is written (`naturalContent_number`).

The bytes of a number are written from the last one to the first, by division by 256, and are read from the first to
the last. `numberBytes_of_ne_zero` turns the one into the other: the last byte, and those in front of it. So the
inductions go from a quotient to the number, and along byte strings from the end (`List.reverseRecOn`).

A content has a zero in front if its first byte would otherwise stand for a sign; for the number zero it is that byte
alone. `isNatural_iff` says of an item that it is a whole number just when it is the item of one, which is all that
the readers of keys ask of it.
-/

namespace ForwardProxy.Der

/-! ## Bytes of numbers -/

theorem numberBytesBefore_eq (tail : Bytes) (n : Nat) :
    numberBytesBefore tail n = numberBytes n ++ tail := by
  induction n using Nat.strongRecOn generalizing tail with
  | ind n ih =>
    by_cases hn : n = 0
    · rw [hn, numberBytes]
      unfold numberBytesBefore
      rfl
    · have hlt : n / 0x100 < n := Nat.div_lt_self (Nat.pos_of_ne_zero hn) (by decide)
      have step : ∀ tail, numberBytesBefore tail n =
          numberBytesBefore (UInt8.ofNat n :: tail) (n / 0x100) := by
        intro tail
        rw [numberBytesBefore, dif_neg hn]
      rw [numberBytes, step, step, ih _ hlt, ih _ hlt [_], List.append_assoc, List.singleton_append]

theorem numberBytes_zero : numberBytes 0 = [] := by
  rw [numberBytes, numberBytesBefore, dif_pos rfl]

/-- The last byte, and those in front of it. -/
theorem numberBytes_of_ne_zero {n : Nat} (hn : n ≠ 0) :
    numberBytes n = numberBytes (n / 0x100) ++ [UInt8.ofNat n] := by
  rw [numberBytes, numberBytesBefore, dif_neg hn, numberBytesBefore_eq]

theorem number_numberBytes (n : Nat) : number (numberBytes n) = n := by
  induction n using Nat.strongRecOn with
  | ind n ih =>
    by_cases hn : n = 0
    · rw [hn, numberBytes_zero]
      rfl
    · have hlt : n / 0x100 < n := Nat.div_lt_self (Nat.pos_of_ne_zero hn) (by decide)
      rw [numberBytes_of_ne_zero hn, number_concat, ih _ hlt, UInt8.toNat_ofNat']
      omega

/-- The bytes of a number do not begin with a zero. -/
theorem head?_numberBytes (n : Nat) : (numberBytes n).head? ≠ some 0 := by
  induction n using Nat.strongRecOn with
  | ind n ih =>
    by_cases hn : n = 0
    · rw [hn, numberBytes_zero]
      simp
    · have hlt : n / 0x100 < n := Nat.div_lt_self (Nat.pos_of_ne_zero hn) (by decide)
      have front := ih _ hlt
      rw [numberBytes_of_ne_zero hn]
      cases hb : numberBytes (n / 0x100) with
      | cons b bs => simpa [hb] using front
      | nil =>
        -- there is only one byte, and it is the number itself
        have hsmall : n / 0x100 = 0 := by
          rw [← number_numberBytes (n / 0x100), hb]
          rfl
        have hbyte : UInt8.ofNat n ≠ 0 := by
          intro h
          have := congrArg UInt8.toNat h
          rw [UInt8.toNat_ofNat'] at this
          simp at this
          omega
        simpa using hbyte

/-- Bytes that do not begin with a zero are those of the number that they spell. -/
theorem numberBytes_number {b : Bytes} (hb : b.head? ≠ some 0) : numberBytes (number b) = b := by
  induction b using List.reverseRecOn with
  | nil => exact numberBytes_zero
  | append_singleton b x ih =>
    have hx : (number (b ++ [x])) / 0x100 = number b := by
      have := x.toNat_lt
      rw [number_concat]
      omega
    have hlast : UInt8.ofNat (number (b ++ [x])) = x := by
      rw [← UInt8.toNat_inj, number_concat, UInt8.toNat_ofNat']
      have := x.toNat_lt
      omega
    have hfront : numberBytes (number b) = b := by
      refine ih fun h => hb ?_
      rw [List.head?_append, h, Option.some_or]
    have hne : number (b ++ [x]) ≠ 0 := by
      intro h
      have hzero : number b = 0 := by omega
      rw [hzero, numberBytes_zero] at hfront
      subst hfront
      have hx0 : x = 0 := by
        rw [← UInt8.toNat_inj]
        simpa [number] using h
      exact hb (by rw [hx0]; rfl)
    rw [numberBytes_of_ne_zero hne, hx, hlast, hfront]

/-! ## Contents of whole numbers -/

theorem number_zero_cons (b : Bytes) : number (0 :: b) = number b := by
  simp [number]

theorem number_naturalContent (n : Nat) : number (naturalContent n) = n := by
  have hn := number_numberBytes n
  unfold naturalContent
  split
  · rename_i hb
    rw [hb] at hn
    rw [← hn]
    rfl
  · rename_i b bs hb
    rw [hb] at hn
    split
    · rw [number_zero_cons, hn]
    · exact hn

theorem isNaturalContent_naturalContent (n : Nat) : isNaturalContent (naturalContent n) = true := by
  have hhead := head?_numberBytes n
  unfold naturalContent
  split
  · rfl
  · rename_i b bs hb
    have hne : b ≠ 0 := by simpa [hb] using hhead
    split
    · rename_i hbig
      simp [isNaturalContent, hbig]
    · rename_i hsmall
      have hlt : b < 0x80 := UInt8.not_le.mp hsmall
      cases bs with
      | nil => simpa [isNaturalContent] using hlt
      | cons c cs => simp [isNaturalContent, hlt, hne]

/-- The content of a whole number is the one that is written for it. -/
theorem naturalContent_number {c : Bytes} (hc : isNaturalContent c = true) :
    naturalContent (number c) = c := by
  match c with
  | [] => cases hc
  | [b] =>
    by_cases hb : b = 0
    · subst hb
      have bytes : numberBytes (number [0]) = [] := by rw [number_zero_cons]; exact numberBytes_zero
      rw [naturalContent, bytes]
    · have hlt : b < 0x80 := by simpa [isNaturalContent] using hc
      have bytes : numberBytes (number [b]) = [b] := numberBytes_number (by simpa using hb)
      simp only [naturalContent, bytes]
      rw [if_neg (UInt8.not_le.mpr hlt)]
  | b :: d :: rest =>
    obtain ⟨hlt, hform⟩ : b < 0x80 ∧ (b ≠ 0 ∨ 0x80 ≤ d) := by simpa [isNaturalContent] using hc
    by_cases hb : b = 0
    · subst hb
      have hd : 0x80 ≤ d := hform.resolve_left (not_not.mpr rfl)
      have hne : d ≠ 0 := by
        rintro rfl
        cases hd
      have bytes : numberBytes (number (d :: rest)) = d :: rest := numberBytes_number (by simpa using hne)
      simp only [naturalContent, number_zero_cons, bytes]
      rw [if_pos hd]
    · have bytes : numberBytes (number (b :: d :: rest)) = b :: d :: rest :=
        numberBytes_number (by simpa using hb)
      simp only [naturalContent, bytes]
      rw [if_neg (UInt8.not_le.mpr hlt)]

/-- A whole number as an item. -/
def naturalItem (n : Nat) : Item := ⟨integerTag, naturalContent n⟩

theorem naturalItem_zero : naturalItem 0 = ⟨integerTag, [0]⟩ := by
  rw [naturalItem, naturalContent, numberBytes_zero]

theorem isNatural_iff {i : Item} : isNatural i = true ↔ i = naturalItem (number i.content) := by
  obtain ⟨tag, content⟩ := i
  constructor
  · intro h
    obtain ⟨rfl, hc⟩ : tag = integerTag ∧ isNaturalContent content = true := by
      simpa [isNatural] using h
    rw [naturalItem, naturalContent_number hc]
  · intro h
    rw [h]
    simp [isNatural, naturalItem, isNaturalContent_naturalContent]

end ForwardProxy.Der
