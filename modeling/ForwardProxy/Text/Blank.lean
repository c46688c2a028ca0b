/-!
# Blank characters

The 25 white-space characters of Unicode, and the three things the proxy does with them: it trims
text that an operator or an environment variable supplies, it asks whether a text is blank, and it
cuts an operator's line into words. Main statements: a word holds no blank character and is never
empty (`words_ne_nil`, `words_nonblank`), and a line has no words exactly when it is blank
(`words_eq_nil_iff`).
-/

namespace ForwardProxy.Text

/-! ## The class -/

/-- The characters of the Unicode property White_Space. -/
def isBlank (c : Char) : Bool :=
  let n := c.toNat
  (9 ≤ n && n ≤ 13) || n == 0x20 || n == 0x85 || n == 0xA0 || n == 0x1680 ||
    (0x2000 ≤ n && n ≤ 0x200A) || n == 0x2028 || n == 0x2029 || n == 0x202F || n == 0x205F ||
    n == 0x3000

/-- A text is blank when every character is. -/
def allBlank (cs : List Char) : Bool := cs.all isBlank

/-! ## Trimming -/

/-- Blank characters are dropped from the front. -/
def trimFront (cs : List Char) : List Char := cs.dropWhile isBlank

/-- Blank characters are dropped from the end. -/
def trimBack (cs : List Char) : List Char := (cs.reverse.dropWhile isBlank).reverse

/-- Blank characters are dropped from both ends. -/
def trim (cs : List Char) : List Char := trimBack (trimFront cs)

/-! ## Words -/

/-- Scans from the left; `held` is the word being read, last character first. -/
def wordsFrom (held : List Char) : List Char → List (List Char)
  | [] => if held.isEmpty then [] else [held.reverse]
  | c :: cs =>
    if isBlank c then
      if held.isEmpty then wordsFrom [] cs else held.reverse :: wordsFrom [] cs
    else wordsFrom (c :: held) cs

/-- The maximal runs of characters that are not blank, in order. -/
def words (cs : List Char) : List (List Char) := wordsFrom [] cs

theorem wordsFrom_nonblank {held cs : List Char} (hh : ∀ c ∈ held, isBlank c = false) :
    ∀ w ∈ wordsFrom held cs, w ≠ [] ∧ ∀ c ∈ w, isBlank c = false := by
  induction cs generalizing held with
  | nil =>
    intro w hw
    cases held with
    | nil => simp [wordsFrom] at hw
    | cons h t => simp [wordsFrom] at hw; subst hw; simpa [or_comm] using hh
  | cons c cs ih =>
    intro w hw
    unfold wordsFrom at hw
    by_cases hc : isBlank c = true
    · cases held with
      | nil => simp [hc] at hw; exact ih (by simp) w hw
      | cons h t =>
        simp [hc] at hw
        rcases hw with hw | hw
        · subst hw; simpa [or_comm] using hh
        · exact ih (by simp) w hw
    · have hc' : isBlank c = false := by simpa using hc
      simp [hc'] at hw
      exact ih (by simpa [hc'] using hh) w hw

/-- No word is empty. -/
theorem words_ne_nil {cs w : List Char} (h : w ∈ words cs) : w ≠ [] :=
  (wordsFrom_nonblank (by simp) w h).1

/-- No word holds a blank character. -/
theorem words_nonblank {cs w : List Char} (h : w ∈ words cs) : ∀ c ∈ w, isBlank c = false :=
  (wordsFrom_nonblank (by simp) w h).2

theorem wordsFrom_ne_nil {held cs : List Char} (h : held ≠ []) : wordsFrom held cs ≠ [] := by
  induction cs generalizing held with
  | nil => cases held <;> simp_all [wordsFrom]
  | cons c cs ih =>
    unfold wordsFrom
    by_cases hc : isBlank c = true
    · cases held <;> simp_all
    · simp [hc]; exact ih (by simp)

/-- Only a blank text has no words. -/
theorem words_eq_nil_iff {cs : List Char} : words cs = [] ↔ allBlank cs = true := by
  unfold words allBlank
  induction cs with
  | nil => simp [wordsFrom]
  | cons c cs ih =>
    unfold wordsFrom
    by_cases hc : isBlank c = true
    · simpa [hc] using ih
    · simp [hc]; exact wordsFrom_ne_nil (by simp)

end ForwardProxy.Text
