/-!
# Cutting text at a separator

The proxy cuts text at the last colon of an address, at the last at-sign of an authority and at the
first separator of a line. Main statement: a cut at the last separator puts the text back together
and leaves none behind it (`splitLast_eq_some_iff`).
-/

namespace ForwardProxy.Text

variable {α : Type} [DecidableEq α]

/-- What stands before and after the last `sep`. -/
def splitLast (sep : α) : List α → Option (List α × List α)
  | [] => none
  | c :: cs =>
    match splitLast sep cs with
    | some (front, back) => some (c :: front, back)
    | none => if c = sep then some ([], cs) else none

/-- What stands before and after the first `sep`. -/
def splitFirst (sep : α) (cs : List α) : Option (List α × List α) :=
  match cs.dropWhile (· ≠ sep) with
  | [] => none
  | _ :: back => some (cs.takeWhile (· ≠ sep), back)

/-- What stands after the last `sep`, or the whole text without one. -/
def afterLast (sep : α) (cs : List α) : List α :=
  match splitLast sep cs with
  | some (_, back) => back
  | none => cs

/-- Only a text without the separator is not cut. -/
theorem splitLast_eq_none_iff {sep : α} {cs : List α} :
    splitLast sep cs = none ↔ sep ∉ cs := by
  induction cs with
  | nil => simp [splitLast]
  | cons c cs ih =>
    cases h : splitLast sep cs with
    | some p => simp_all [splitLast]
    | none =>
      have hn := ih.1 h
      by_cases hc : c = sep
      · simp [splitLast, h, hc]
      · simp [splitLast, h, hc, hn, Ne.symm hc]

/-- The cut puts the text back together, and the back part holds no separator. -/
theorem splitLast_eq_some_iff {sep : α} {cs front back : List α} :
    splitLast sep cs = some (front, back) ↔ cs = front ++ sep :: back ∧ sep ∉ back := by
  induction cs generalizing front with
  | nil => simp [splitLast]
  | cons c cs ih =>
    cases h : splitLast sep cs with
    | none =>
      have hn := splitLast_eq_none_iff.1 h
      cases front with
      | nil =>
        simp only [splitLast, h, List.nil_append, List.cons.injEq]
        constructor
        · intro he
          split at he
          · simp only [Option.some.injEq, Prod.mk.injEq] at he
            exact ⟨⟨‹c = sep›, he.2⟩, he.2 ▸ hn⟩
          · simp at he
        · rintro ⟨⟨rfl, rfl⟩, _⟩
          simp
      | cons g front =>
        by_cases hc : c = sep <;> simp_all [splitLast]
        all_goals
          rintro rfl rfl
          simp at hn
    | some p =>
      obtain ⟨f, b⟩ := p
      cases front with
      | nil =>
        simp only [splitLast, h, Option.some.injEq, Prod.mk.injEq, reduceCtorEq, false_and,
          List.nil_append, List.cons.injEq, false_iff, not_and]
        rintro ⟨rfl, rfl⟩ hb
        exact hb (by have := @splitLast_eq_none_iff _ _ c cs; simp_all)
      | cons g front =>
        have := @ih front
        simp only [h, Option.some.injEq, Prod.mk.injEq] at this
        simp only [splitLast, h, Option.some.injEq, Prod.mk.injEq, List.cons.injEq,
          List.cons_append]
        constructor
        · rintro ⟨⟨rfl, rfl⟩, rfl⟩
          exact ⟨⟨rfl, (this.1 ⟨rfl, rfl⟩).1⟩, (this.1 ⟨rfl, rfl⟩).2⟩
        · rintro ⟨⟨rfl, he⟩, hb⟩
          have hfb := this.2 ⟨he, hb⟩
          exact ⟨⟨rfl, hfb.1⟩, hfb.2⟩

end ForwardProxy.Text
