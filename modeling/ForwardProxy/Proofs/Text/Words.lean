import ForwardProxy.Text.Blank

/-!
# The words of a line

Cutting a line at every blank character and leaving out what is empty gives its words
(`words_eq_filter_splitOnP`). So a blank character separates the words on its left from those on its right
(`words_append_cons`), blanks at the ends of a line do not count (`words_blank_append`, `words_append_blank`), and a
text without blanks is one word (`words_of_nonblank`).

The reader goes through the line once and holds the word it is in, so the induction is on `wordsFrom`, with the held
characters general: they are a part of the first piece (`wordsFrom_eq`). Everything after it follows from the laws of
`List.splitOnP`, and no later module opens the reader.
-/

namespace ForwardProxy.Text

/-- The word that is held is a part of the first piece. -/
theorem wordsFrom_eq (held cs : List Char) :
    wordsFrom held cs = ((cs.splitOnP isBlank).modifyHead (held.reverse ++ ·)).filter fun w => !w.isEmpty := by
  induction cs generalizing held with
  | nil => cases held <;> simp [wordsFrom]
  | cons c cs ih =>
    obtain ⟨first, rest, pieces⟩ := List.exists_cons_of_ne_nil (List.splitOnP_ne_nil isBlank cs)
    rw [List.splitOnP_cons_eq_if_modifyHead]
    by_cases hc : isBlank c = true
    · cases held <;> simp [wordsFrom, hc, ih, pieces]
    · simp [wordsFrom, hc, ih, pieces]

/-- The words are the pieces between blanks that are not empty. -/
theorem words_eq_filter_splitOnP (cs : List Char) :
    words cs = (cs.splitOnP isBlank).filter fun w => !w.isEmpty := by
  obtain ⟨first, rest, pieces⟩ := List.exists_cons_of_ne_nil (List.splitOnP_ne_nil isBlank cs)
  simp [words, wordsFrom_eq, pieces]

/-- A blank separates words. -/
theorem words_append_cons {c : Char} (hc : isBlank c = true) (cs ds : List Char) :
    words (cs ++ c :: ds) = words cs ++ words ds := by
  simp [words_eq_filter_splitOnP, List.splitOnP_append_cons _ _ hc]

/-- A text without blanks is a word. -/
theorem words_of_nonblank {w : List Char} (hw : w ≠ []) (nonblank : ∀ c ∈ w, isBlank c = false) : words w = [w] := by
  simp [words_eq_filter_splitOnP, List.splitOnP_eq_singleton nonblank, hw]

/-- Blanks in front of a line do not count. -/
theorem words_blank_append {gap : List Char} (blank : allBlank gap = true) (cs : List Char) :
    words (gap ++ cs) = words cs := by
  induction gap with
  | nil => rfl
  | cons c gap ih =>
    simp only [allBlank, List.all_cons, Bool.and_eq_true] at blank
    calc words ([] ++ c :: (gap ++ cs)) = words [] ++ words (gap ++ cs) := words_append_cons blank.1 _ _
      _ = words cs := ih blank.2

/-- Blanks behind a line do not count. -/
theorem words_append_blank {gap : List Char} (blank : allBlank gap = true) (cs : List Char) :
    words (cs ++ gap) = words cs := by
  cases gap with
  | nil => rw [List.append_nil]
  | cons c gap =>
    simp only [allBlank, List.all_cons, Bool.and_eq_true] at blank
    rw [words_append_cons blank.1, words_eq_nil_iff.mpr blank.2, List.append_nil]

end ForwardProxy.Text
