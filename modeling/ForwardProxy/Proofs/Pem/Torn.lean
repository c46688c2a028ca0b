import ForwardProxy.Proofs.Pem.RoundTrip

/-!
# Blocks that have been cut off

A block of which only a part has been written holds nothing: the line that ends its section is not
there, or not whole (`blocks_read_torn`). Only the line feed behind that line can be missed (`read_lastLine`).

A part of a block is a part of its first line, or the first line and a part of its lines of data, or all of these and
a part of the last line; `prefix_line` makes one such step. In the data the induction is on the lines into which it
has been cut, with the data that was taken up before left general (`blocks_readLines_torn`). A part of a line of data
is a line of data, and no part of the last line is taken for that line, since the mark is compared as a whole.

`part.length + 1 < b.text.length` and `b.text.length ≤ part.length + 1` divide all parts among the two lemmas, so
that of a process that stopped somewhere in the writing of a block it can always be said what is read afterwards.
-/

namespace ForwardProxy.Pem

/-! ## The first part of bytes in lines -/

theorem prefix_line {line rest part : Bytes} {feed : UInt8} (h : part <+: line ++ feed :: rest) :
    part <+: line ∨ ∃ part', part = line ++ feed :: part' ∧ part' <+: rest := by
  rcases Nat.le_total part.length line.length with short | long
  · exact .inl (List.prefix_of_prefix_length_le h (List.prefix_append line _) short)
  · obtain ⟨behind, rfl⟩ := List.prefix_of_prefix_length_le (List.prefix_append line (feed :: rest)) h long
    rw [List.prefix_append_right_inj] at h
    rcases List.prefix_cons_iff.mp h with rfl | ⟨part', rfl, inside⟩
    · rw [List.append_nil]
      exact .inl (List.prefix_refl line)
    · exact .inr ⟨part', rfl, inside⟩

theorem linesFrom_plain {line : Bytes} (hline : ∀ b ∈ line, b ≠ 10 ∧ b ≠ 13) (held : Bytes) :
    linesFrom held line = if (held.reverse ++ line).isEmpty then [] else [held.reverse ++ line] := by
  induction line generalizing held with
  | nil => cases held <;> simp [linesFrom]
  | cons b line ih =>
    rw [List.forall_mem_cons] at hline
    rw [linesFrom, if_neg (by simp [hline.1]), ih hline.2]
    simp

theorem plain_of_part {part line : Bytes} (h : part <+: line) (hline : ∀ b ∈ line, b ≠ 10 ∧ b ≠ 13) :
    ∀ b ∈ part, b ≠ 10 ∧ b ≠ 13 :=
  fun b hb => hline b (h.mem hb)

/-! ## Sections that do not end -/

/-- At most one line, which does not end the section, leaves it open. -/
theorem blocks_readLines_plain {l line : Bytes} (hline : ∀ b ∈ line, b ≠ 10 ∧ b ≠ 13)
    (begin : beginMark.isPrefixOf line = false) (ends : (endMark l).isPrefixOf line = false) (data : Bytes) :
    (readLines (some l) data (linesFrom [] line)).blocks = [] := by
  rw [linesFrom_plain hline, List.reverse_nil, List.nil_append]
  split
  · rw [readLines]
  · rw [readLines, if_neg (Bool.not_eq_true _ ▸ begin)]
    simp only [ends, Bool.false_eq_true, if_false]
    rw [readLines]

theorem isPrefixOf_eq_false {mark line : Bytes} (h : ¬ mark <+: line) : mark.isPrefixOf line = false := by
  rw [Bool.eq_false_iff, Ne, List.isPrefixOf_iff_prefix]
  exact h

theorem blocks_readLines_torn {n : Nat} {cs : List Char} (hcs : ∀ c ∈ cs, IsDataChar c) {b : Block}
    (hb : IsLabel b.label) {part : Bytes} (h : part <+: codes (wrapUpTo n cs) ++ b.lastLine)
    (torn : part.length < (codes (wrapUpTo n cs) ++ b.lastLine).length) (data : Bytes) :
    (readLines (some (Bytes.ofString b.label)) data (linesFrom [] part)).blocks = [] := by
  have lastLine (part : Bytes) (h : part <+: b.lastLine) (torn : part.length < b.lastLine.length) (data : Bytes) :
      (readLines (some (Bytes.ofString b.label)) data (linesFrom [] part)).blocks = [] := by
    refine blocks_readLines_plain (plain_of_part h (Block.lastLine_plain hb)) ?_ ?_ data
    · refine isPrefixOf_eq_false fun begins => ?_
      have both := begins.trans h
      rw [Block.lastLine, beginMark_eq, endMark_eq] at both
      rw [← List.isPrefixOf_iff_prefix] at both
      cases both
    · exact isPrefixOf_eq_false fun ends => absurd ends.length_le (Nat.not_le_of_lt torn)
  fun_induction wrapUpTo n cs generalizing part data with
  | case1 => exact lastLine part h torn data
  | case2 => exact lastLine part h torn data
  | case3 n cs more ih =>
    rw [codes_wrapLine, List.append_assoc, List.cons_append] at h torn
    rcases prefix_line h with short | ⟨part, rfl, inside⟩
    · have taken : ∀ c ∈ cs.take lineWidth, IsDataChar c := fun c hc => hcs c (List.mem_of_mem_take hc)
      have noMark : beginMark.isPrefixOf part = false ∧
          (endMark (Bytes.ofString b.label)).isPrefixOf part = false := by
        cases hpart : part with
        | nil =>
          rw [beginMark_eq, endMark_eq]
          exact ⟨rfl, rfl⟩
        | cons x part' =>
          obtain ⟨c, hc, rfl⟩ := List.mem_map.mp (short.mem (hpart ▸ List.mem_cons_self))
          exact noMark_of_isDataChar (taken c hc) _ _
      exact blocks_readLines_plain (plain_of_part short (codes_plain taken)) noMark.1 noMark.2 data
    · rw [readLines_dataLine hcs more]
      refine ih (fun c hc => hcs c (List.mem_of_mem_drop hc)) inside ?_ _
      rw [List.length_append, List.length_append, List.length_cons, List.length_cons] at torn
      omega

/-- A block of which only a part is there is not found, unless nothing but the line feed is missing. -/
theorem blocks_read_torn {b : Block} (hb : IsLabel b.label) {part : Bytes} (h : part <+: b.text)
    (torn : part.length + 1 < b.text.length) : (read part).blocks = [] := by
  rw [Block.text_eq] at h torn
  rcases prefix_line h with short | ⟨part, rfl, inside⟩
  · rw [read, linesFrom_plain (plain_of_part short (Block.firstLine_plain hb)), List.reverse_nil,
      List.nil_append]
    split
    · rfl
    · rw [readLines]
      split
      · split <;> rfl
      · rfl
  · rw [read_firstLine hb]
    rw [List.length_append, List.length_append, List.length_cons, List.length_cons, List.length_append,
      List.length_singleton] at torn
    have short : part.length < (codes (wrapUpTo b.shown.length b.shown) ++ b.lastLine).length := by
      rw [wrapLines] at torn
      omega
    exact blocks_readLines_torn b.isDataChar_shown hb
      (List.prefix_of_prefix_length_le inside (List.prefix_append _ _) (Nat.le_of_lt short)) short []

/-- The last line feed of a block may be missing. -/
theorem read_lastLine {b : Block} (hb : IsLabel b.label) (known : b.isKnown = true) {part : Bytes}
    (h : part <+: b.text) (whole : b.text.length ≤ part.length + 1) : read part = ⟨[b], true⟩ := by
  rw [Block.text_eq] at h whole
  rcases prefix_line h with short | ⟨part, rfl, inside⟩
  · have few := short.length_le
    have nonempty : 0 < b.lastLine.length := by
      rw [Block.lastLine, endMark_eq]
      exact Nat.zero_lt_succ _
    rw [List.length_append, List.length_cons, List.length_append, List.length_append] at whole
    omega
  · obtain ⟨end_, rfl⟩ : codes (wrapLines b.shown) ++ b.lastLine <+: part := by
      refine List.prefix_of_prefix_length_le (List.prefix_append _ [10]) inside ?_
      rw [List.length_append, List.length_append, List.length_cons, List.length_cons, List.length_append,
        List.length_singleton] at whole
      omega
    rw [List.prefix_append_right_inj] at inside
    have data : readData (codes (wrapUpTo b.shown.length b.shown)) = some b.data := readData_wrapLines b.data
    have last : linesFrom [] (b.lastLine ++ end_) = [b.lastLine ++ end_] := by
      rcases List.prefix_cons_iff.mp inside with rfl | ⟨behind, rfl, nothing⟩
      · rw [List.append_nil, linesFrom_plain (Block.lastLine_plain hb), List.reverse_nil, List.nil_append,
          if_neg]
        rw [Block.lastLine, endMark_eq]
        exact Bool.false_ne_true
      · rw [List.prefix_nil.mp nothing, linesFrom_line (Block.lastLine_plain hb)]
        rfl
    rw [read_firstLine hb, List.append_assoc, wrapLines, readLines_wrapUpTo b.isDataChar_shown,
      List.nil_append, last, Block.lastLine, readLines_endMark b.label data, ← Block.isKnown, known, if_pos rfl]
    rfl

end ForwardProxy.Pem
