import ForwardProxy.Proofs.Der.Numbers
import ForwardProxy.Rsa.Numbers

/-!
# Plain keys are their numbers

Of the numbers of a key there is one plain form, and every plain key is that of its numbers (`isPlainKey_iff`,
`Numbers.read_eq_some_iff`). No relation between the numbers is asked for: eight zeros, or a modulus that is not the
product of the primes, are a plain key as well, as far as its form goes.

A plain key is a sequence of the version and eight whole numbers. That the items of a sequence are nine numbers of
which the first is zero (`areNumbers_iff`) is taken from `Der.isNatural_iff` one item at a time, and the rest is the
reading of sequences.
-/

namespace ForwardProxy.Rsa

/-- The items of a plain key. -/
def Numbers.items (k : Numbers) : List Der.Item :=
  [0, k.modulus, k.exponent, k.privateExponent, k.prime1, k.prime2, k.exponent1, k.exponent2,
    k.coefficient].map Der.naturalItem

theorem Numbers.write_eq (k : Numbers) : k.write = Der.sequence (k.items.map Der.Item.write) := by
  rw [write, items, List.map_map]
  rfl

theorem Numbers.readSequence_write {k : Numbers} (hmax : k.write.length ≤ Der.maxLength) :
    Der.readSequence k.write = some k.items := by
  rw [k.write_eq] at hmax ⊢
  refine Der.readSequence_sequence ?_ hmax
  intro i hi
  obtain ⟨n, -, rfl⟩ := List.mem_map.mp hi
  rfl

theorem areNumbers_iff {items : List Der.Item} :
    areNumbers items = true ↔ ∃ k : Numbers, items = k.items := by
  constructor
  · intro h
    obtain ⟨⟨hlength, hnatural⟩, hversion⟩ : (items.length = 9 ∧ ∀ i ∈ items, Der.isNatural i = true) ∧
        items.head?.map Der.Item.content = some [0] := by simpa [areNumbers] using h
    match items, hlength with
    | [v, n, e, d, p, q, x, y, c], _ =>
      have natural : ∀ i ∈ [v, n, e, d, p, q, x, y, c], i = Der.naturalItem (Der.number i.content) :=
        fun i hi => Der.isNatural_iff.mp (hnatural i hi)
      have hzero : Der.number v.content = 0 := by
        rw [Option.some.inj hversion]
        rfl
      refine ⟨⟨Der.number n.content, Der.number e.content, Der.number d.content, Der.number p.content,
        Der.number q.content, Der.number x.content, Der.number y.content, Der.number c.content⟩, ?_⟩
      simp only [Numbers.items, List.map_cons, List.map_nil, List.cons.injEq, and_true]
      refine ⟨?_, ?_, ?_, ?_, ?_, ?_, ?_, ?_, ?_⟩
      · rw [← hzero]
        exact natural v (by simp)
      all_goals exact natural _ (by simp)
  · rintro ⟨k, rfl⟩
    have hnatural : ∀ n, Der.isNatural (Der.naturalItem n) = true := by
      intro n
      rw [Der.isNatural_iff, Der.naturalItem, Der.number_naturalContent]
      rfl
    have hzero : (Der.naturalItem 0).content = [0] := by rw [Der.naturalItem_zero]
    simp [areNumbers, Numbers.items, hnatural, hzero]

/-- Plain keys are the plain forms of numbers. -/
theorem isPlainKey_iff {b : Bytes} :
    isPlainKey b = true ↔ ∃ k : Numbers, k.write = b ∧ b.length ≤ Der.maxLength := by
  constructor
  · intro h
    cases hitems : Der.readSequence b with
    | none => simp [isPlainKey, hitems] at h
    | some items =>
      rw [isPlainKey, hitems] at h
      obtain ⟨k, rfl⟩ := areNumbers_iff.mp h
      obtain ⟨-, hb, hmax⟩ := Der.readSequence_eq_some_iff.mp hitems
      exact ⟨k, by rw [k.write_eq, hb], hmax⟩
  · rintro ⟨k, rfl, hmax⟩
    rw [isPlainKey, Numbers.readSequence_write hmax]
    exact areNumbers_iff.mpr ⟨k, rfl⟩

/-- The numbers of a plain key are those that it is the plain form of. -/
theorem Numbers.read_eq_some_iff {b : Bytes} {k : Numbers} :
    Numbers.read b = some k ↔ k.write = b ∧ b.length ≤ Der.maxLength := by
  have values : ∀ k : Numbers, k.items.map (fun i => Der.number i.content) =
      [0, k.modulus, k.exponent, k.privateExponent, k.prime1, k.prime2, k.exponent1, k.exponent2,
        k.coefficient] := by
    intro k
    simp [items, Der.naturalItem, Der.number_naturalContent]
  have reads : ∀ k : Numbers, k.write.length ≤ Der.maxLength → Numbers.read k.write = some k := by
    intro k hmax
    rw [Numbers.read, if_pos (isPlainKey_iff.mpr ⟨k, rfl, hmax⟩)]
    simp only [readSequence_write hmax, values]
  constructor
  · intro h
    by_cases hb : isPlainKey b = true
    · obtain ⟨k', rfl, hmax⟩ := isPlainKey_iff.mp hb
      obtain rfl := Option.some.inj ((reads k' hmax).symm.trans h)
      exact ⟨rfl, hmax⟩
    · rw [Numbers.read, if_neg hb] at h
      cases h
  · rintro ⟨rfl, hmax⟩
    exact reads k hmax

end ForwardProxy.Rsa
