import ForwardProxy.Address
import Mathlib.Data.List.DropRight

/-!
# What a tunnel target says

A text that is read as a tunnel target is a host, in one pair of brackets or in none, and a colon and a port
behind it or nothing. Which of its colons is in front of a port does not depend on the host, since the text
behind a port's colon consists of digits and a sign (`char_of_readPort`).

* `unbracket_eq_some_iff`: the pair of brackets around a text; `bare` is the text without it.
* `stripBrackets_eq`: all brackets at the ends of a text, as two searches of the list library, from which the other
  facts about them follow; `stripBrackets_in_brackets` is where the two readings of brackets agree.
* `readTarget_cases`: a target that has been read is the bare text of its host, which is not empty as typed, with
  the default port or with the one behind the last colon.
* `exists_tail`, `port_of_readTarget`: what stands behind the host, in the two forms that the comparison with an
  authority needs.

`hostText` is the host with its brackets, since an authority counts them as part of it. That the host as typed is not
empty says nothing of the host within its brackets: `[]` is read, and names nothing.
-/

namespace ForwardProxy

namespace Text

theorem char_of_readPort {cs : List Char} {n : Nat} (h : readPort cs = some n) {c : Char} (hc : c ∈ cs) :
    c = '+' ∨ isDigit c = true := by
  obtain ⟨-, digits, -, -⟩ := readBelow_eq_some_iff.mp h
  rw [dropPlus.eq_def] at digits
  split at digits
  · rcases List.mem_cons.mp hc with rfl | hc
    · exact .inl rfl
    · exact .inr (digits c hc)
  · exact .inr (digits c hc)

end Text

namespace Address

variable {cs t inner : List Char} {target : HostPort}

/-! ## Brackets -/

theorem unbracket_eq_some_iff : unbracket cs = some inner ↔ cs = '[' :: inner ++ [']'] := by
  rw [unbracket.eq_def]
  split
  · rename_i rest
    rw [List.cons_append, List.cons_inj_right]
    constructor
    · intro h
      obtain ⟨last, ⟨⟩⟩ := Option.ite_none_right_eq_some.mp h
      exact (List.dropLast_append_getLast? _ last).symm
    · rintro rfl
      simp
  · rename_i other
    constructor
    · intro h
      cases h
    · rintro rfl
      exact absurd rfl (other _)

/-- A text without the brackets around it, if it stands in a pair of them. -/
def bare (t : List Char) : List Char := (unbracket t).getD t

theorem bare_of_bracketed (h : unbracket t = some inner) : bare t = inner := by
  rw [bare, h, Option.getD_some]

theorem bare_of_none (h : unbracket t = none) : bare t = t := by
  rw [bare, h, Option.getD_none]

/-- Only brackets are taken off. -/
theorem mem_bare_iff {c : Char} (opening : c ≠ '[') (closing : c ≠ ']') : c ∈ bare t ↔ c ∈ t := by
  cases bracketed : unbracket t with
  | none => rw [bare_of_none bracketed]
  | some inner =>
    rw [bare_of_bracketed bracketed, unbracket_eq_some_iff.mp bracketed]
    simp [opening, closing]

/-- The host of a tunnel target as typed, with its brackets. -/
def hostText (cs : List Char) : List Char :=
  if (unbracket cs).isSome then cs
  else
    match Text.splitLast ':' cs with
    | some (host, _) => host
    | none => cs

theorem stripBrackets_eq (cs : List Char) :
    stripBrackets cs = (cs.dropWhile (· = '[')).rdropWhile (· = ']') := rfl

theorem mem_of_mem_stripBrackets {c : Char} (h : c ∈ stripBrackets cs) : c ∈ cs :=
  (List.dropWhile_suffix _).subset ((List.rdropWhile_prefix _ _).subset h)

/-- What is left has no brackets at its ends. -/
theorem ends_stripBrackets (cs : List Char) :
    (stripBrackets cs).head? ≠ some '[' ∧ (stripBrackets cs).getLast? ≠ some ']' := by
  rw [stripBrackets_eq]
  constructor
  · intro first
    obtain ⟨rest, left⟩ := List.head?_eq_some_iff.mp first
    obtain ⟨back, front⟩ := List.rdropWhile_prefix (· = ']') (cs.dropWhile (· = '['))
    have head := List.head?_dropWhile_not (· = '[') cs
    rw [← front, left] at head
    simp at head
  · intro last
    obtain ⟨front, left⟩ := List.getLast?_eq_some_iff.mp last
    have nonempty : (cs.dropWhile (· = '[')).rdropWhile (· = ']') ≠ [] := by simp [left]
    have kept := List.rdropWhile_last_not (· = ']') (cs.dropWhile (· = '[')) nonempty
    simp [left] at kept

theorem dropWhile_eq_self (first : cs.head? ≠ some '[') : cs.dropWhile (· = '[') = cs := by
  cases cs with
  | nil => rfl
  | cons c cs => exact List.dropWhile_cons_of_neg (by simpa using first)

theorem rdropWhile_eq_self (last : cs.getLast? ≠ some ']') : cs.rdropWhile (· = ']') = cs := by
  rw [List.rdropWhile_eq_self_iff]
  intro nonempty same
  refine last ?_
  rw [List.getLast?_eq_getLast_of_ne_nil nonempty]
  simpa using same

theorem stripBrackets_eq_self (first : cs.head? ≠ some '[') (last : cs.getLast? ≠ some ']') :
    stripBrackets cs = cs := by
  rw [stripBrackets_eq, dropWhile_eq_self first, rdropWhile_eq_self last]

/-- A pair of brackets around a text is taken off, and nothing else, if the text has no brackets at its own ends. -/
theorem stripBrackets_in_brackets (first : inner.head? ≠ some '[') (last : inner.getLast? ≠ some ']') :
    stripBrackets ('[' :: inner ++ [']']) = inner := by
  have next : (inner ++ [']']).head? ≠ some '[' := by
    cases inner with
    | nil => simp
    | cons c cs => simpa using first
  rw [stripBrackets_eq, List.cons_append, List.dropWhile_cons_of_pos (by decide), dropWhile_eq_self next,
    List.rdropWhile_concat_pos _ _ _ (by decide), rdropWhile_eq_self last]

theorem stripBrackets_of_bracketed (opening : '[' ∉ inner) (closing : ']' ∉ inner) :
    stripBrackets ('[' :: inner ++ [']']) = inner :=
  stripBrackets_in_brackets (fun first => opening (List.mem_of_mem_head? first))
    fun last => closing (List.mem_of_getLast? last)

/-! ## Reading -/

/-- How a tunnel target has been read. -/
theorem readTarget_cases (h : readTarget cs = .ok target) :
    target.host = String.ofList (bare (hostText cs)) ∧ hostText cs ≠ [] ∧
      (cs = hostText cs ∧ target.port = defaultTunnelPort ∧ ((unbracket cs).isSome ∨ ':' ∉ cs) ∨
        ∃ back, Text.splitLast ':' cs = some (hostText cs, back) ∧ Text.readPort back = some target.port) := by
  rw [readTarget.eq_def] at h
  split at h
  · rename_i inner whole
    have text : hostText cs = cs := by simp [hostText, whole]
    cases h
    refine ⟨by simp [text, bare, whole], ?_, .inl ⟨text.symm, rfl, .inl (by simp [whole])⟩⟩
    rw [text, unbracket_eq_some_iff.mp whole]
    simp
  rename_i open'
  split at h
  · rename_i host back cut
    have text : hostText cs = host := by simp [hostText, open', cut]
    split at h
    · cases h
    rename_i port read
    rw [text]
    split at h
    · rename_i inner bracketed
      cases h
      refine ⟨by simp [bare, bracketed], ?_, .inr ⟨back, cut, read⟩⟩
      rw [unbracket_eq_some_iff.mp bracketed]
      simp
    · rename_i plain
      split at h
      · cases h
      rename_i nonempty
      cases h
      exact ⟨by simp [bare, plain], nonempty, .inr ⟨back, cut, read⟩⟩
  · rename_i uncut
    have text : hostText cs = cs := by simp [hostText, open', uncut]
    split at h
    · cases h
    rename_i nonempty
    cases h
    rw [text]
    exact ⟨by simp [bare, open'], nonempty, .inl ⟨rfl, rfl, .inr (Text.splitLast_eq_none_iff.mp uncut)⟩⟩

/-- Behind the host stands nothing, or a colon and a port. -/
theorem exists_tail (h : readTarget cs = .ok target) :
    ∃ tail, cs = hostText cs ++ tail ∧ '@' ∉ tail ∧ tail.takeWhile (· ≠ ':') = [] := by
  obtain ⟨-, -, ⟨whole, -, -⟩ | ⟨back, cut, read⟩⟩ := readTarget_cases h
  · exact ⟨[], by rw [List.append_nil]; exact whole, by simp, rfl⟩
  · refine ⟨':' :: back, (Text.splitLast_eq_some_iff.mp cut).1, ?_, List.takeWhile_cons_of_neg (by simp)⟩
    intro sign
    rcases List.mem_cons.mp sign with eq | sign
    · cases eq
    · rcases Text.char_of_readPort read sign with eq | digit
      · cases eq
      · exact absurd digit (by decide)

/-- The last colon is in front of the port of a tunnel target, or it is in front of none at all. -/
theorem port_of_readTarget (h : readTarget cs = .ok target) :
    ((Text.splitLast ':' cs).bind fun cut => Text.readPort cut.2).getD defaultTunnelPort = target.port := by
  obtain ⟨-, -, ⟨-, port, bracketed | uncut⟩ | ⟨back, cut, read⟩⟩ := readTarget_cases h
  · obtain ⟨inner, bracketed⟩ := Option.isSome_iff_exists.mp bracketed
    have unread : (Text.splitLast ':' cs).bind (fun cut => Text.readPort cut.2) = none := by
      rw [Option.bind_eq_none_iff]
      rintro ⟨front, back⟩ cut
      have last : (front ++ ':' :: back).getLast? = some ']' := by
        rw [← (Text.splitLast_eq_some_iff.mp cut).1, unbracket_eq_some_iff.mp bracketed]
        exact List.getLast?_concat
      rw [List.getLast?_append_of_ne_nil _ (by simp)] at last
      have closing : ']' ∈ back := by
        rcases List.mem_cons.mp (List.mem_of_getLast? last) with eq | closing
        · cases eq
        · exact closing
      rw [Option.eq_none_iff_forall_not_mem]
      intro port read
      rcases Text.char_of_readPort read closing with eq | digit
      · cases eq
      · exact absurd digit (by decide)
    rw [unread, port]
    rfl
  · rw [Text.splitLast_eq_none_iff.mpr uncut, port]
    rfl
  · rw [cut, Option.bind_some, read]
    rfl

end Address
end ForwardProxy
