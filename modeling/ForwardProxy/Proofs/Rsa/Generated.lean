import ForwardProxy.Proofs.Rsa.Conversion
import Mathlib.Algebra.Group.Nat.Defs

/-!
# Keys that are made can be wrapped

The numbers of a key that is made are bounded by its size, and so is the length of its plain form, which
lies far below the greatest length (`exists_wrap_of_generate`).

* `primeNear_lt`: a prime is looked for from a number of half the size upwards, in at most a fixed number of steps,
  so it is hardly greater than that number, whatever the source of randomness gives.
* `fits_ofPrimes`: each number of the key is below the product of the primes or near one of them, with `size` bytes
  at most.
* `length_write_le`: nine numbers of that size, with their tags and lengths.
* `exists_wrap_of_fits`: a key of at most a thousand bytes per number is wrapped.

Nothing is said of the numbers being prime, nor of how many tries it takes to find them: a search that finds none
makes no key, and the statement is about a key that was made. The bounds are generous on purpose, since what is
needed is only that the length of a form never keeps a key from being wrapped.
-/

namespace ForwardProxy

/-! ## Lengths -/

namespace Der

theorem length_numberBytes_le {n k : Nat} (hn : n < 0x100 ^ k) : (numberBytes n).length ≤ k := by
  induction k generalizing n with
  | zero =>
    obtain rfl : n = 0 := by
      rw [Nat.pow_zero] at hn
      omega
    rw [numberBytes_zero]
    exact Nat.le_refl 0
  | succ k ih =>
    by_cases hzero : n = 0
    · rw [hzero, numberBytes_zero]
      exact Nat.zero_le _
    · have front : n / 0x100 < 0x100 ^ k := by
        rw [Nat.pow_succ] at hn
        omega
      rw [numberBytes_of_ne_zero hzero, List.length_append, List.length_singleton]
      exact Nat.succ_le_succ (ih front)

theorem length_naturalContent_le {n k : Nat} (hn : n < 0x100 ^ k) : (naturalContent n).length ≤ k + 1 := by
  have few := length_numberBytes_le hn
  rw [naturalContent]
  split
  · exact Nat.le_add_left 1 k
  · rename_i bytes
    rw [bytes, List.length_cons] at few
    split
    · rw [List.length_cons, List.length_cons]
      omega
    · rw [List.length_cons]
      omega

theorem length_item_le (tag : UInt8) (content : Bytes) : (item tag content).length ≤ content.length + 6 := by
  have few : (lengthBytes content.length).length ≤ 5 := by
    rw [lengthBytes]
    split_ifs <;> simp
  rw [item, Item.write, List.length_cons, List.length_append]
  dsimp only
  omega

end Der

/-! ## Sizes of numbers -/

namespace Number

theorem inverseMod_le (a m : Nat) : inverseMod a m ≤ m + 1 := by
  rw [inverseMod]
  rcases Nat.eq_zero_or_pos m with rfl | positive
  · have one : inverseUpTo (2 * Nat.log2 0 + 4) (a % 0) 0 1 0 = 1 := rfl
    rw [one]
    decide
  · have below := Int.emod_lt_of_pos (inverseUpTo (2 * Nat.log2 m + 4) (a % m) m 1 0)
      (Int.natCast_pos.mpr positive)
    omega

theorem primeFrom_le {fits : Nat → Bool} {limit n p : Nat} (h : primeFrom fits limit n = some p) :
    p ≤ n + 2 * limit := by
  induction limit generalizing n with
  | zero => cases h
  | succ limit ih =>
    rw [primeFrom] at h
    split at h
    · rw [← Option.some.inj h]
      omega
    · have later := ih h
      omega

end Number

namespace Rsa.Numbers

/-- No number of the key takes more bytes. -/
def Fits (k : Numbers) (size : Nat) : Prop :=
  ∀ n ∈ [k.modulus, k.exponent, k.privateExponent, k.prime1, k.prime2, k.exponent1, k.exponent2,
    k.coefficient], n < 0x100 ^ size

theorem length_write_le {k : Numbers} {size : Nat} (h : k.Fits size) :
    k.write.length ≤ 9 * (size + 7) + 6 := by
  have one (n : Nat) (hn : n < 0x100 ^ size) : (Der.natural n).length ≤ size + 7 := by
    have content := Der.length_naturalContent_le hn
    have whole := Der.length_item_le Der.integerTag (Der.naturalContent n)
    rw [Der.natural]
    omega
  have zero := one 0 (Nat.pow_pos (by decide))
  have modulus := one _ (h k.modulus (by simp))
  have exponent := one _ (h k.exponent (by simp))
  have privateExponent := one _ (h k.privateExponent (by simp))
  have prime1 := one _ (h k.prime1 (by simp))
  have prime2 := one _ (h k.prime2 (by simp))
  have exponent1 := one _ (h k.exponent1 (by simp))
  have exponent2 := one _ (h k.exponent2 (by simp))
  have coefficient := one _ (h k.coefficient (by simp))
  refine Nat.le_trans (Der.length_item_le Der.sequenceTag _) (Nat.add_le_add_right ?_ 6)
  simp only [List.map_cons, List.map_nil, List.flatten_cons, List.flatten_nil, List.length_append,
    List.length_nil]
  omega

/-- The numbers of a key have hardly more bytes than its two primes together. -/
theorem fits_ofPrimes {p q n : Nat} (hn : 2 ≤ n) (hp : p < 0x100 ^ n) (hq : q < 0x100 ^ n) :
    (ofPrimes p q).Fits (2 * n + 1) := by
  have double : 0x100 ^ n * 0x100 ^ n = 0x100 ^ (2 * n) := by rw [← Nat.pow_add, Nat.two_mul]
  have product : p * q < 0x100 ^ (2 * n) := by
    calc p * q ≤ 0x100 ^ n * q := Nat.mul_le_mul_right q (Nat.le_of_lt hp)
      _ < 0x100 ^ n * 0x100 ^ n := Nat.mul_lt_mul_of_pos_left hq (Nat.pow_pos (by decide))
      _ = 0x100 ^ (2 * n) := double
  have totient : (p - 1) * (q - 1) / Nat.gcd (p - 1) (q - 1) < 0x100 ^ (2 * n) := by
    calc (p - 1) * (q - 1) / Nat.gcd (p - 1) (q - 1) ≤ (p - 1) * (q - 1) := Nat.div_le_self _ _
      _ ≤ p * q := Nat.mul_le_mul (Nat.sub_le p 1) (Nat.sub_le q 1)
      _ < 0x100 ^ (2 * n) := product
  have half : 0x100 ^ n ≤ 0x100 ^ (2 * n) := Nat.pow_le_pow_right (by decide) (by omega)
  have public_ : publicExponent ≤ 0x100 ^ (2 * n) := by
    calc publicExponent ≤ 0x100 ^ 4 := by decide
      _ ≤ 0x100 ^ (2 * n) := Nat.pow_le_pow_right (by decide) (by omega)
  have private_ := Number.inverseMod_le publicExponent ((p - 1) * (q - 1) / Nat.gcd (p - 1) (q - 1))
  have coefficient := Number.inverseMod_le q p
  have exponent1 := Nat.mod_le (Number.inverseMod publicExponent
    ((p - 1) * (q - 1) / Nat.gcd (p - 1) (q - 1))) (p - 1)
  have exponent2 := Nat.mod_le (Number.inverseMod publicExponent
    ((p - 1) * (q - 1) / Nat.gcd (p - 1) (q - 1))) (q - 1)
  have more : 0x100 ^ (2 * n) < 0x100 ^ (2 * n + 1) := Nat.pow_lt_pow_right (by decide) (by omega)
  intro number hnumber
  refine Nat.lt_of_le_of_lt ?_ more
  simp only [ofPrimes, List.mem_cons, List.not_mem_nil, or_false] at hnumber
  rcases hnumber with rfl | rfl | rfl | rfl | rfl | rfl | rfl | rfl
  · exact Nat.le_of_lt product
  · exact public_
  all_goals omega

/-- The primes of a key have little more than half of its bits. -/
theorem primeNear_lt {random p : Nat} (h : primeNear random = some p) : p < 0x100 ^ 130 := by
  have bound := Number.primeFrom_le h
  have rest : random % (1 <<< (keyBits / 2 - 3)) < 1 <<< (keyBits / 2 - 3) := Nat.mod_lt _ (by decide)
  have size : 3 <<< (keyBits / 2 - 2) + 1 <<< (keyBits / 2 - 3) + 1 + 2 * (8 * keyBits) < 0x100 ^ 130 := by
    decide
  omega

/-- A key whose numbers are not too long can be wrapped. -/
theorem exists_wrap_of_fits {k : Numbers} {size : Nat} (h : k.Fits size) (hsize : size ≤ 1000) :
    ∃ w, wrap k.write = .ok w := by
  have short := length_write_le h
  refine exists_wrap_iff.mpr ⟨⟨k, rfl⟩, ?_⟩
  have whole := Der.length_item_le Der.sequenceTag (wrappedItems k.write).flatten
  have octets := Der.length_item_le Der.octetStringTag k.write
  have others : (Der.natural 0).length = 3 ∧
      (Der.sequence [Der.Oid.rsaEncryption.write, Der.item Der.nullTag []]).length = 15 := by
    decide +kernel
  simp only [wrappedItems, List.flatten_cons, List.flatten_nil, List.length_append, List.length_nil,
    others] at whole
  rw [Der.sequence, Der.maxLength, wrappedItems]
  simp only [List.flatten_cons, List.flatten_nil]
  omega

/-- A key that is made can be wrapped. -/
theorem exists_wrap_of_generate {e e' : Number.Entropy} {k : Numbers} (h : generate e = (some k, e')) :
    ∃ w, wrap k.write = .ok w := by
  have fits : k.Fits (2 * 130 + 1) := by
    rw [generate] at h
    dsimp only at h
    split at h
    · rename_i p q hp hq
      rw [Prod.mk.injEq] at h
      have made := h.1
      split at made
      · cases made
      · rw [← Option.some.inj made]
        exact fits_ofPrimes (by decide) (primeNear_lt hp) (primeNear_lt hq)
    · cases h
  exact exists_wrap_of_fits fits (by decide)

end Rsa.Numbers
end ForwardProxy
