import ForwardProxy.Text.Base64

/-!
# Base 64 is read back

Bytes are written as the characters of values below 64, and as equals signs that fill up the last group
of four. The values of the characters are the ones written, and the bytes that they stand for are those
that there were.

The writer is taken apart into `values`, which knows nothing of an alphabet, and `fill`, the number of equals signs:

* `encode_eq`, `encode_unpadded`: the text is the digits of the values, with or without the signs behind them;
* `values_lt`, `length_values`: a value is below 64, and values and signs make up whole groups of four;
* `octets_values`: the values stand for the bytes, so that nothing is lost;
* `value?_digit`, `value?_digit_urlSafe`: a digit is told apart from all others, in either alphabet;
* `digit_spec`: in the standard alphabet no digit is a hyphen, an equals sign, a blank or a control character.

Inductions are on `values`, three bytes at a time, with its own cases. The arithmetic is on the codes of three bytes
(`octets_values`), which is linear once the quotients and remainders by 4, 16 and 64 are named. The last lemma is
what keeps a text of base 64 apart from the lines around it in a file, which begin with hyphens.
-/

namespace ForwardProxy.Text.Base64

/-- The values that stand for bytes. -/
def values : Bytes → List Nat
  | x :: y :: z :: rest => sextets x.toNat y.toNat z.toNat ++ values rest
  | [x, y] => (sextets x.toNat y.toNat 0).take 3
  | [x] => (sextets x.toNat 0 0).take 2
  | [] => []

/-- How many equals signs fill up the last group. -/
def fill (b : Bytes) : Nat := (3 - b.length % 3) % 3

theorem encode_eq (a : Alphabet) (b : Bytes) :
    encode a true b = (values b).map (digit a) ++ List.replicate (fill b) '=' := by
  fun_induction values b with
  | case1 x y z rest ih =>
    have same : fill (x :: y :: z :: rest) = fill rest := by
      simp only [fill, List.length_cons]
      omega
    rw [encode, ih, same, List.map_append, List.append_assoc]
  | case2 x y => rfl
  | case3 x => rfl
  | case4 => rfl

theorem encode_unpadded (a : Alphabet) (b : Bytes) : encode a false b = (values b).map (digit a) := by
  fun_induction values b with
  | case1 x y z rest ih => rw [encode, ih, List.map_append]
  | case2 x y => rw [encode, if_neg Bool.false_ne_true, List.append_nil]
  | case3 x => rw [encode, if_neg Bool.false_ne_true, List.append_nil]
  | case4 => rfl

theorem values_lt {b : Bytes} {v : Nat} (hv : v ∈ values b) : v < 64 := by
  have below : ∀ x y z : UInt8, ∀ v ∈ sextets x.toNat y.toNat z.toNat, v < 64 := by
    intro x y z v hv
    have hx := x.toNat_lt
    have hy := y.toNat_lt
    have hz := z.toNat_lt
    simp only [sextets, List.mem_cons, List.not_mem_nil, or_false] at hv
    omega
  fun_induction values b with
  | case1 x y z rest ih =>
    rcases List.mem_append.mp hv with hv | hv
    · exact below x y z v hv
    · exact ih hv
  | case2 x y => exact below x y 0 v (List.mem_of_mem_take hv)
  | case3 x => exact below x 0 0 v (List.mem_of_mem_take hv)
  | case4 => cases hv

/-- Values and equals signs make up whole groups, and no more than two equals signs are needed. -/
theorem length_values (b : Bytes) : ((values b).length + fill b) % 4 = 0 ∧ fill b ≤ 2 := by
  refine ⟨?_, by simp only [fill]; omega⟩
  fun_induction values b with
  | case1 x y z rest ih =>
    simp only [fill, sextets, List.length_append, List.length_cons, List.length_nil] at ih ⊢
    omega
  | case2 x y => simp [fill, sextets]
  | case3 x => simp [fill, sextets]
  | case4 => rfl

/-- The values stand for the bytes. -/
theorem octets_values (b : Bytes) : octets (values b) = some b := by
  have first : ∀ x y : UInt8, UInt8.ofNat (x.toNat / 4 * 4 + (x.toNat % 4 * 16 + y.toNat / 16) / 16) = x := by
    intro x y
    have hy := y.toNat_lt
    have same : x.toNat / 4 * 4 + (x.toNat % 4 * 16 + y.toNat / 16) / 16 = x.toNat := by omega
    rw [same, UInt8.ofNat_toNat]
  have second : ∀ x y z : UInt8, UInt8.ofNat ((x.toNat % 4 * 16 + y.toNat / 16) % 16 * 16 +
      (y.toNat % 16 * 4 + z.toNat / 64) / 4) = y := by
    intro x y z
    have hz := z.toNat_lt
    have hy := y.toNat_lt
    have same : (x.toNat % 4 * 16 + y.toNat / 16) % 16 * 16 + (y.toNat % 16 * 4 + z.toNat / 64) / 4 =
        y.toNat := by omega
    rw [same, UInt8.ofNat_toNat]
  have third : ∀ y z : UInt8,
      UInt8.ofNat ((y.toNat % 16 * 4 + z.toNat / 64) % 4 * 64 + z.toNat % 64) = z := by
    intro y z
    have hz := z.toNat_lt
    have same : (y.toNat % 16 * 4 + z.toNat / 64) % 4 * 64 + z.toNat % 64 = z.toNat := by omega
    rw [same, UInt8.ofNat_toNat]
  fun_induction values b with
  | case1 x y z rest ih =>
    simp only [sextets, List.cons_append, List.nil_append, octets, ih, Option.bind_eq_bind,
      Option.bind_some, first, second, third]
  | case2 x y =>
    have hx := first x y
    have hy := second x y 0
    simp only [UInt8.toNat_zero] at hy
    simp only [sextets, List.take_succ_cons, List.take_zero, octets, hx, hy]
  | case3 x =>
    have hx := first x 0
    simp only [UInt8.toNat_zero] at hx
    simp only [sextets, List.take_succ_cons, List.take_zero, octets, hx]
  | case4 => rfl

/-- In either alphabet a value is told from its character. -/
theorem value?_digit {v : Nat} (hv : v < 64) : value? standard (digit standard v) = some v := by
  have all : ∀ v : Fin 64, value? standard (digit standard v) = some v.val := by decide
  exact all ⟨v, hv⟩

theorem value?_digit_urlSafe {v : Nat} (hv : v < 64) : value? urlSafe (digit urlSafe v) = some v := by
  have all : ∀ v : Fin 64, value? urlSafe (digit urlSafe v) = some v.val := by decide
  exact all ⟨v, hv⟩

/-- No character of a value is a control character, a blank, a hyphen or an equals sign, or outside
ASCII. -/
theorem digit_spec {v : Nat} (hv : v < 64) : 32 < (digit standard v).toNat ∧
    (digit standard v).toNat < 128 ∧ digit standard v ≠ '-' ∧ digit standard v ≠ '=' := by
  have all : ∀ v : Fin 64, 32 < (digit standard v).toNat ∧ (digit standard v).toNat < 128 ∧
      digit standard v ≠ '-' ∧ digit standard v ≠ '=' := by decide
  exact all ⟨v, hv⟩

end ForwardProxy.Text.Base64
