import ForwardProxy.Der.Item

/-!
# Items as bytes

Every length and every item has one written form, and only that is read. So reading is stated as an
equivalence each time: what is read from some bytes is what these bytes are the written form of.

* `readLength_eq_some_iff`: lengths, in the short form and in the four long ones.
* `Item.read_eq_some_iff`: one item in front of anything.
* `Item.readUpTo_eq_some_iff`, `readAll_eq_some_iff`, `readOne_eq_some_iff`: several items and nothing behind them.
* `readSequence_eq_some_iff`: bytes that are one sequence, and not too long.

An equivalence says both that what has been written is read back and that nothing else is accepted. A length in more
bytes than it needs is refused, and so is anything behind the last item; both are in the direction from left to
right, and neither needs a lemma of its own.

The readers of lists have a limit for their recursion, and the induction is on the list with the limit general.
`length_le_flatMap_write` shows that the length of the bytes is a limit that is never reached, as every item takes at
least one byte. `Item.Writable` holds the two conditions on an item: a tag that is allowed, and a content that is not
too long for the longest form of a length.
-/

namespace ForwardProxy.Der

/-! ## Lengths -/

theorem number_concat (b : Bytes) (x : UInt8) : number (b ++ [x]) = 0x100 * number b + x.toNat := by
  simp [number]

theorem lengthBytes_short {n : Nat} (hn : n < 0x80) : lengthBytes n = [UInt8.ofNat n] := if_pos hn

/-- The four long forms of a length: how many bytes, and those bytes. -/
theorem exists_lengthBytes_long {n : Nat} (hn : 0x80 ≤ n) (hmax : n ≤ maxLength) :
    ∃ bs, lengthBytes n = UInt8.ofNat (0x80 + bs.length) :: bs ∧ 0 < bs.length ∧ bs.length ≤ 4 ∧
      number bs = n := by
  unfold maxLength at hmax
  unfold lengthBytes
  rw [if_neg (Nat.not_lt.mpr hn)]
  split
  · refine ⟨[UInt8.ofNat n], rfl, by simp, by simp, ?_⟩
    simp [number]
    omega
  · split
    · refine ⟨[UInt8.ofNat (n / 0x100), UInt8.ofNat n], rfl, by simp, by simp, ?_⟩
      simp [number]
      omega
    · split
      · refine ⟨[UInt8.ofNat (n / 0x10000), UInt8.ofNat (n / 0x100), UInt8.ofNat n], rfl, by simp,
          by simp, ?_⟩
        simp [number]
        omega
      · refine ⟨[UInt8.ofNat (n / 0x1000000), UInt8.ofNat (n / 0x10000), UInt8.ofNat (n / 0x100),
          UInt8.ofNat n], rfl, by simp, by simp, ?_⟩
        simp [number]
        omega

/-- A length is read back as it is written, whatever stands behind it. -/
theorem readLength_lengthBytes {n : Nat} (hmax : n ≤ maxLength) (rest : Bytes) :
    readLength (lengthBytes n ++ rest) = some (n, rest) := by
  by_cases hn : n < 0x80
  · have hfirst : UInt8.ofNat n < 0x80 := by
      rw [UInt8.lt_iff_toNat_lt, UInt8.toNat_ofNat']
      simp
      omega
    have hvalue : (UInt8.ofNat n).toNat = n := by
      rw [UInt8.toNat_ofNat']
      omega
    rw [lengthBytes_short hn, List.singleton_append, readLength, if_pos hfirst, hvalue]
  · obtain ⟨bs, hbytes, hpos, hfour, hnumber⟩ := exists_lengthBytes_long (Nat.not_lt.mp hn) hmax
    have hvalue : (UInt8.ofNat (0x80 + bs.length)).toNat = 0x80 + bs.length := by
      rw [UInt8.toNat_ofNat']
      omega
    have hfirst : ¬ UInt8.ofNat (0x80 + bs.length) < 0x80 := by
      rw [UInt8.lt_iff_toNat_lt, hvalue]
      simp
    have hsize : 0x80 + bs.length - 0x80 = bs.length := Nat.add_sub_cancel_left _ _
    rw [hbytes, List.cons_append, readLength, if_neg hfirst]
    simp only [hvalue, hsize, List.take_left, List.drop_left, hnumber]
    have fits : ¬ ((bs.length = 0 || 4 < bs.length || (bs ++ rest).length < bs.length) = true) := by
      simp only [Bool.or_eq_true, decide_eq_true_eq, List.length_append]
      omega
    have same : (n ≤ maxLength && lengthBytes n == UInt8.ofNat (0x80 + bs.length) :: bs) = true := by
      simp [hmax, hbytes]
    rw [if_neg fits, if_pos same]

/-- Only written forms of lengths are read. -/
theorem readLength_eq_some_iff {b rest : Bytes} {n : Nat} :
    readLength b = some (n, rest) ↔ n ≤ maxLength ∧ b = lengthBytes n ++ rest := by
  constructor
  · intro h
    cases b with
    | nil => simp [readLength] at h
    | cons first tail =>
      rw [readLength] at h
      split at h
      · rename_i hfirst
        obtain ⟨rfl, rfl⟩ : first.toNat = n ∧ tail = rest := by simpa using h
        have hlt : first.toNat < 0x80 := UInt8.lt_iff_toNat_lt.mp hfirst
        refine ⟨?_, ?_⟩
        · unfold maxLength
          omega
        · rw [lengthBytes_short hlt, UInt8.ofNat_toNat, List.singleton_append]
      · simp only at h
        split at h
        · simp at h
        · split at h
          · rename_i hform
            obtain ⟨hn, hrest⟩ : _ = n ∧ _ = rest := by simpa using h
            rw [hn] at hform
            obtain ⟨hmax, hbytes⟩ : n ≤ maxLength ∧ lengthBytes n = _ := by simpa using hform
            refine ⟨hmax, ?_⟩
            rw [hbytes, ← hrest, List.cons_append, List.take_append_drop]
          · simp at h
  · rintro ⟨hmax, rfl⟩
    exact readLength_lengthBytes hmax rest

/-! ## Items -/

namespace Item

variable {b rest : Bytes} {i : Item} {items : List Item} {tag : UInt8}

theorem length_content_lt (i : Item) : i.content.length < i.write.length := by
  rw [write, List.length_cons, List.length_append]
  omega

theorem write_ne_nil (i : Item) : i.write ≠ [] := by simp [write]

/-- Only written forms of items are read. -/
theorem read_eq_some_iff : read b = some (i, rest) ↔ i.Writable ∧ b = i.write ++ rest := by
  constructor
  · intro h
    cases b with
    | nil => simp [read] at h
    | cons tag tail =>
      rw [read] at h
      split at h
      · simp at h
      · rename_i htag
        cases hlength : readLength tail with
        | none => simp [hlength] at h
        | some found =>
          obtain ⟨n, tail'⟩ := found
          obtain ⟨hmax, rfl⟩ := readLength_eq_some_iff.mp hlength
          simp only [hlength] at h
          split at h
          · rename_i hn
            obtain ⟨rfl, rfl⟩ : (⟨tag, tail'.take n⟩ : Item) = i ∧ tail'.drop n = rest := by
              simpa using h
            have hcontent : (tail'.take n).length = n := List.length_take_of_le hn
            refine ⟨⟨by simpa using htag, by rwa [hcontent]⟩, ?_⟩
            rw [write, hcontent, List.cons_append, List.append_assoc, List.take_append_drop]
          · simp at h
  · rintro ⟨⟨htag, hmax⟩, rfl⟩
    rw [write, List.cons_append, read, htag, List.append_assoc, readLength_lengthBytes hmax]
    simp

/-- As many items as allowed are read, and nothing is left. -/
theorem readUpTo_eq_some_iff {limit : Nat} : readUpTo limit b = some items ↔
    items.length ≤ limit ∧ (∀ i ∈ items, i.Writable) ∧ b = items.flatMap write := by
  induction limit generalizing b items with
  | zero =>
    cases b with
    | nil =>
      simp only [readUpTo, Option.some.injEq, Nat.le_zero, List.length_eq_zero_iff]
      constructor
      · rintro rfl
        simp
      · rintro ⟨rfl, -⟩
        rfl
    | cons x b =>
      simp only [readUpTo, Nat.le_zero, List.length_eq_zero_iff]
      constructor
      · intro h
        cases h
      · rintro ⟨rfl, -, h⟩
        cases h
  | succ limit ih =>
    cases b with
    | nil =>
      simp only [readUpTo, Option.some.injEq]
      constructor
      · rintro rfl
        simp
      · rintro ⟨-, -, h⟩
        cases items with
        | nil => rfl
        | cons i items => simp [write] at h
    | cons x b =>
      simp only [readUpTo, Option.bind_eq_bind, Option.bind_eq_some_iff, Option.some.injEq]
      constructor
      · rintro ⟨⟨i, rest⟩, hread, items', hitems, rfl⟩
        obtain ⟨hi, hb⟩ := read_eq_some_iff.mp hread
        obtain ⟨hlength, hwritable, rfl⟩ := ih.mp hitems
        refine ⟨Nat.succ_le_succ hlength, ?_, by rw [List.flatMap_cons, hb]⟩
        intro j hj
        rcases List.mem_cons.mp hj with rfl | hj
        · exact hi
        · exact hwritable j hj
      · rintro ⟨hlength, hwritable, hb⟩
        cases items with
        | nil => cases hb
        | cons i items =>
          rw [List.flatMap_cons] at hb
          have hi : i.Writable := hwritable i List.mem_cons_self
          have hitems : readUpTo limit (items.flatMap write) = some items :=
            ih.mpr ⟨Nat.le_of_succ_le_succ hlength, fun j hj => hwritable j (.tail i hj), rfl⟩
          exact ⟨(i, items.flatMap write), read_eq_some_iff.mpr ⟨hi, hb⟩, items, hitems, rfl⟩

theorem length_le_flatMap_write (items : List Item) : items.length ≤ (items.flatMap write).length := by
  induction items with
  | nil => simp
  | cons i items ih =>
    have hi : i.write.length ≠ 0 := by simp [write_ne_nil]
    rw [List.flatMap_cons, List.length_cons, List.length_append]
    omega

/-- An item is not longer than all items together. -/
theorem length_write_le {i : Item} {items : List Item} (hi : i ∈ items) :
    i.write.length ≤ (items.flatMap write).length := by
  obtain ⟨front, back, rfl⟩ := List.append_of_mem hi
  rw [List.flatMap_append, List.flatMap_cons]
  simp only [List.length_append]
  omega

theorem readAll_eq_some_iff : readAll b = some items ↔
    (∀ i ∈ items, i.Writable) ∧ b = items.flatMap write := by
  rw [readAll, readUpTo_eq_some_iff]
  constructor
  · rintro ⟨-, h⟩
    exact h
  · rintro ⟨hwritable, rfl⟩
    exact ⟨length_le_flatMap_write items, hwritable, rfl⟩

theorem readOne_eq_some_iff : readOne b = some i ↔ i.Writable ∧ b = i.write := by
  have one : readOne b = some i ↔ read b = some (i, []) := by
    unfold readOne
    split <;> simp_all
  rw [one, read_eq_some_iff, List.append_nil]

theorem inside_eq_some_iff : inside tag i = some items ↔
    i.tag = tag ∧ (∀ j ∈ items, j.Writable) ∧ i.content = items.flatMap write := by
  rw [inside, ← readAll_eq_some_iff]
  split <;> simp_all

end Item

/-! ## Sequences -/

theorem sequence_map_write (items : List Item) :
    sequence (items.map Item.write) = Item.write ⟨sequenceTag, items.flatMap Item.write⟩ := by
  rw [sequence, item, List.flatMap]

/-- The bytes are one sequence, and not too long. -/
theorem readSequence_eq_some_iff {b : Bytes} {items : List Item} : readSequence b = some items ↔
    (∀ i ∈ items, i.Writable) ∧ b = sequence (items.map Item.write) ∧ b.length ≤ maxLength := by
  rw [sequence_map_write, readSequence]
  constructor
  · intro h
    split at h
    · rename_i hmax
      obtain ⟨i, hi, hitems⟩ := Option.bind_eq_some_iff.mp h
      obtain ⟨-, rfl⟩ := Item.readOne_eq_some_iff.mp hi
      obtain ⟨htag, hwritable, hcontent⟩ := Item.inside_eq_some_iff.mp hitems
      refine ⟨hwritable, ?_, hmax⟩
      rw [← htag, ← hcontent]
    · cases h
  · rintro ⟨hwritable, rfl, hmax⟩
    rw [if_pos hmax, Option.bind_eq_some_iff]
    have hcontent := Item.length_content_lt ⟨sequenceTag, items.flatMap Item.write⟩
    exact ⟨_, Item.readOne_eq_some_iff.mpr ⟨⟨rfl, Nat.le_of_lt (Nat.lt_of_lt_of_le hcontent hmax)⟩, rfl⟩,
      Item.inside_eq_some_iff.mpr ⟨rfl, hwritable, rfl⟩⟩

/-- What an item holds is not longer than a sequence with the item. -/
theorem length_content_le_sequence {i : Item} {items : List Item} (hi : i ∈ items) :
    i.content.length ≤ (sequence (items.map Item.write)).length := by
  rw [sequence_map_write]
  calc i.content.length
    _ ≤ i.write.length := Nat.le_of_lt i.length_content_lt
    _ ≤ (items.flatMap Item.write).length := Item.length_write_le hi
    _ ≤ (Item.write ⟨sequenceTag, items.flatMap Item.write⟩).length :=
      Nat.le_of_lt (Item.length_content_lt ⟨sequenceTag, _⟩)

/-- Items with allowed tags are read back, unless they are too long together. -/
theorem readSequence_sequence {items : List Item} (htags : ∀ i ∈ items, isTag i.tag = true)
    (hmax : (sequence (items.map Item.write)).length ≤ maxLength) :
    readSequence (sequence (items.map Item.write)) = some items :=
  readSequence_eq_some_iff.mpr
    ⟨fun i hi => ⟨htags i hi, Nat.le_trans (length_content_le_sequence hi) hmax⟩, rfl, hmax⟩

end ForwardProxy.Der
