import ForwardProxy.Console.Command
import ForwardProxy.Proofs.Text.Numerals
import ForwardProxy.Proofs.Text.Words

/-!
# The grammar of commands

A command is a verb under one of its names, in any case of the ASCII letters, and what the verb takes: an id, `on` or
`off`, or nothing. Whatever blanks stand around and between the words, exactly the lines of that form are read, and
as the command that they say; every other line is refused (`lines_follow_the_grammar`). So a command is read back
from its print.

* `Says line c` is the grammar: a name of the verb (`verbs`), and what it takes (`Takes`), as relations between words
  and commands that do not mention the reader.
* `ofWords_cons_eq_ok_iff`: the words that are read as a command are those that say it. The cases are the commands;
  for each, the reader's comparison of the verb with all names comes out the same.
* `parse_eq_ok_iff`: lines, by their words.
* `parse_print`: a print is one of the lines that say the command.

## Side conditions

`Fits` bounds the id of a command that is printed: ids are numbers of 64 bits, and a greater one would be printed and
not read again. Only the verb may be in any case: `on` and `off` are small. The id may have a plus sign and zeros in
front, as any number. Blanks are those of Unicode, while case is that of ASCII alone, so a verb with other capital
letters is unknown.
-/

namespace ForwardProxy.Console.Command

/-! ## Commands in words -/

/-- The names of a command's verb, of which the first is printed. -/
def verbs : Command → List String
  | list => ["list", "ls"]
  | approve _ => ["approve", "a"]
  | drop _ => ["drop", "d"]
  | flush => ["flush"]
  | moderate _ => ["moderate"]
  | help => ["help", "?"]
  | quit => ["quit", "q"]

/-- What stands behind the verb. -/
def Takes : Command → List (List Char) → Prop
  | approve id, args | drop id, args => ∃ word, args = [word] ∧ Text.IsNumeral 0x10000000000000000 word id
  | moderate on, args => args = [(if on then "on" else "off").toList]
  | list, args | flush, args | help, args | quit, args => args = []

/-- A word is a name of the verb, in any case of the ASCII letters. -/
def Names (word : List Char) (c : Command) : Prop := ∃ name ∈ c.verbs, word.map Char.toLower = name.toList

/-- A line says a command: what stands between its blanks is a name of the verb and then what the verb takes. -/
def Says (line : String) (c : Command) : Prop :=
  ∃ verb args, (line.toList.splitOnP Text.isBlank).filter (fun w => !w.isEmpty) = verb :: args ∧
    Names verb c ∧ c.Takes args

/-- The id is one that a request can have. -/
def Fits : Command → Prop
  | approve id | drop id => id < 0x10000000000000000
  | _ => True

/-- The verb as it is printed. -/
def verb : Command → String
  | list => "list"
  | approve _ => "approve"
  | drop _ => "drop"
  | flush => "flush"
  | moderate _ => "moderate"
  | help => "help"
  | quit => "quit"

/-- What is printed behind the verb. -/
def behind : Command → String
  | approve id | drop id => " " ++ toString id
  | moderate on => if on then " on" else " off"
  | _ => ""

variable {c : Command} {line typed : String} {word : List Char} {args : List (List Char)}

theorem render_eq (c : Command) : c.render = c.verb ++ c.behind := by
  cases c with
  | moderate on => cases on <;> rfl
  | approve id | drop id => simp [render, verb, behind, ← String.append_assoc]
  | _ => rfl

/-! ## Reading words -/

theorem alone_eq_ok_iff {c' : Command} : alone typed args c' = .ok c ↔ args = [] ∧ c = c' := by
  cases args <;> simp [alone, eq_comm]

theorem withId_eq_ok_iff {about : Nat → Command} :
    withId typed args about = .ok c ↔
      ∃ id, (∃ word, args = [word] ∧ Text.IsNumeral 0x10000000000000000 word id) ∧ c = about id := by
  unfold withId
  split
  · simp
  · rename_i word
    cases h : Text.readId word with
    | none =>
      have unread (id : Nat) : ¬ Text.IsNumeral 0x10000000000000000 word id := fun numeral => by
        rw [Text.readId, Text.readBelow_eq_some_iff_isNumeral.mpr numeral] at h
        cases h
      simp [unread]
    | some id =>
      have read (id' : Nat) : Text.IsNumeral 0x10000000000000000 word id' ↔ id = id' := by
        rw [← Text.readBelow_eq_some_iff_isNumeral, ← Text.readId, h, Option.some.injEq]
      simp [read, eq_comm]
  · rename_i more
    have other (word : List Char) : args ≠ [word] := fun one => more word one
    simp [other]

theorem map_ofList_eq_singleton_iff {s : String} : args.map String.ofList = [s] ↔ args = [s.toList] := by
  rw [List.map_eq_singleton_iff]
  constructor
  · rintro ⟨word, rfl, rfl⟩
    rw [String.toList_ofList]
  · rintro rfl
    exact ⟨s.toList, rfl, String.ofList_toList⟩

theorem names_iff {c : Command} : Names word c ↔ String.ofList (word.map Text.lowerChar) ∈ c.verbs := by
  have same : word.map Text.lowerChar = word.map Char.toLower := List.map_congr_left fun x _ =>
    Text.lowerChar_eq_toLower x
  rw [Names, same]
  constructor
  · rintro ⟨name, named, spelt⟩
    rwa [spelt, String.ofList_toList]
  · intro named
    exact ⟨_, named, String.toList_ofList.symm⟩

/-- The words that are read as a command are those that say it. -/
theorem ofWords_cons_eq_ok_iff : ofWords (word :: args) = .ok c ↔ Names word c ∧ c.Takes args := by
  rw [names_iff, ofWords]
  generalize String.ofList (word.map Text.lowerChar) = name
  constructor
  · intro read
    split at read
    case h_1 | h_2 | h_7 | h_9 | h_10 | h_11 | h_12 =>
      obtain ⟨rfl, rfl⟩ := alone_eq_ok_iff.mp read
      exact ⟨by decide, rfl⟩
    case h_3 | h_4 | h_5 | h_6 =>
      obtain ⟨id, takes, rfl⟩ := withId_eq_ok_iff.mp read
      exact ⟨by simp [verbs], takes⟩
    case h_8 =>
      split at read
      case h_1 on =>
        cases read
        exact ⟨by decide, map_ofList_eq_singleton_iff.mp on⟩
      case h_2 off =>
        cases read
        exact ⟨by decide, map_ofList_eq_singleton_iff.mp off⟩
      case h_3 => cases read
    case h_13 => cases read
  · rintro ⟨named, takes⟩
    cases c with
    | list | flush | help | quit =>
      obtain rfl : args = [] := takes
      simp only [verbs, List.mem_cons, List.not_mem_nil, or_false] at named
      rcases named with rfl | rfl <;> rfl
    | approve id | drop id =>
      simp only [verbs, List.mem_cons, List.not_mem_nil, or_false] at named
      rcases named with rfl | rfl <;> exact withId_eq_ok_iff.mpr ⟨id, takes, rfl⟩
    | moderate on =>
      obtain rfl := List.mem_singleton.mp named
      obtain rfl : args = _ := takes
      cases on <;> rfl

/-! ## Reading lines -/

theorem parse_eq_ok_iff : parse line = .ok c ↔ Says line c := by
  rw [parse, Says, Text.words_eq_filter_splitOnP]
  cases (line.toList.splitOnP Text.isBlank).filter fun w => !w.isEmpty with
  | nil => simp [ofWords]
  | cons word args => simp [ofWords_cons_eq_ok_iff]

theorem alone_ne_empty : alone typed args c ≠ .error .empty := by
  unfold alone
  split <;> simp

theorem withId_ne_empty {about : Nat → Command} : withId typed args about ≠ .error .empty := by
  unfold withId
  split
  · simp
  · split <;> simp
  · simp

/-- A line that is not blank is not missing its command. -/
theorem parse_ne_empty (spoken : Text.allBlank line.toList = false) : parse line ≠ .error .empty := by
  have nonempty : Text.words line.toList ≠ [] := by simp [Text.words_eq_nil_iff, spoken]
  obtain ⟨word, args, words⟩ := List.exists_cons_of_ne_nil nonempty
  rw [parse, words, ofWords]
  split
  case h_1 | h_2 | h_7 | h_9 | h_10 | h_11 | h_12 => exact alone_ne_empty
  case h_3 | h_4 | h_5 | h_6 => exact withId_ne_empty
  case h_8 => split <;> simp
  case h_13 => simp

/-! ## Reading prints -/

theorem isBlank_eq_false {x : Char} (visible : 32 < x.toNat ∧ x.toNat < 127) : Text.isBlank x = false := by
  simp only [Text.isBlank, Bool.or_eq_false_iff, Bool.and_eq_false_iff, decide_eq_false_iff_not, beq_eq_false_iff_ne]
  omega

/-- A verb that is printed is one word, in any case. -/
theorem words_of_verb (spelt : word.map Char.toLower = c.verb.toList) : Text.words word = [word] := by
  have letters : c.verb.toList ≠ [] ∧ ∀ x ∈ c.verb.toList, Text.isLetter x = true := by
    cases c <;> dsimp only [verb] <;> exact ⟨by decide, forall_mem_of_all (by decide)⟩
  rw [← spelt, List.forall_mem_map, ne_eq, List.map_eq_nil_iff] at letters
  refine Text.words_of_nonblank letters.1 fun x hx => isBlank_eq_false ?_
  have letter := Text.isLetter_of_lowerChar (Text.lowerChar_eq_toLower x ▸ letters.2 x hx)
  have bounds := Text.toNat_of_isLetter letter
  omega

/-- The words of a print, with the verb in any case. -/
theorem exists_words (fits : c.Fits) (spelt : word.map Char.toLower = c.verb.toList) :
    ∃ args, Text.words (word ++ c.behind.toList) = word :: args ∧ c.Takes args := by
  have verb := words_of_verb spelt
  -- What is behind the verb, if anything, is a space and one word.
  have one {arg : List Char} (nonempty : arg ≠ []) (visible : ∀ x ∈ arg, 32 < x.toNat ∧ x.toNat < 127) :
      Text.words (word ++ ' ' :: arg) = [word, arg] := by
    rw [Text.words_append_cons (by decide), verb,
      Text.words_of_nonblank nonempty fun x hx => isBlank_eq_false (visible x hx), List.singleton_append]
  cases c with
  | list | flush | help | quit => exact ⟨[], by simpa [behind] using verb, rfl⟩
  | approve id | drop id =>
    have numeral := Text.readBelow_eq_some_iff_isNumeral.mp (Text.readBelow_toString fits)
    refine ⟨[(toString id).toList], ?_, _, rfl, numeral⟩
    rw [behind, String.toList_append]
    refine one (Text.toList_toString_ne_nil id) fun x hx => ?_
    have bounds := Text.toNat_of_isDigit (Text.isDigit_of_mem_toString hx)
    omega
  | moderate on => cases on <;> exact ⟨_, one (by decide) (forall_mem_of_all (by decide)), rfl⟩

/-- A print is read as the command, in any case of its verb and among any blanks. -/
theorem parse_print (fits : c.Fits) {front back : List Char} (blank : Text.allBlank front = true)
    (blank' : Text.allBlank back = true) (spelt : word.map Char.toLower = c.verb.toList) :
    parse (String.ofList (front ++ word ++ c.behind.toList ++ back)) = .ok c := by
  obtain ⟨args, words, takes⟩ := exists_words fits spelt
  have named : Names word c := ⟨c.verb, by cases c <;> exact List.mem_cons_self, spelt⟩
  rw [parse, String.toList_ofList, Text.words_append_blank blank', List.append_assoc, Text.words_blank_append blank,
    words]
  exact ofWords_cons_eq_ok_iff.mpr ⟨named, takes⟩

/-- A line is read as the command that its words say, and refused if they say none. A command that is printed is
read back, in any case of its verb and among any blanks. -/
theorem lines_follow_the_grammar (line : String) :
    (∀ c, parse line = .ok c ↔ Says line c) ∧
    ((∀ c, ¬ Says line c) → ∃ fault, parse line = .error fault) ∧
    ∀ c, c.render = c.verb ++ c.behind ∧
      ∀ front word back, c.Fits → Text.allBlank front = true → Text.allBlank back = true →
        word.map Char.toLower = c.verb.toList →
        parse (String.ofList (front ++ word ++ c.behind.toList ++ back)) = .ok c := by
  refine ⟨fun c => parse_eq_ok_iff, fun unparsed => ?_, fun c => ⟨render_eq c, ?_⟩⟩
  case refine_2 => exact fun front word back fits blank blank' spelt => parse_print fits blank blank' spelt
  cases read : parse line with
  | ok c => exact absurd (parse_eq_ok_iff.mp read) (unparsed c)
  | error fault => exact ⟨fault, rfl⟩

/-- The greatest id is approved, behind a no-break space and before a carriage return; the next number is no id. -/
theorem lines_follow_the_grammar_greatest :
    parse "\u00a0aPProve 18446744073709551615\r" = .ok (.approve 18446744073709551615) ∧
    ∀ c, ¬ Says "approve 18446744073709551616" c := by
  constructor
  · have printed := ((lines_follow_the_grammar "").2.2 (.approve 18446744073709551615)).2
    exact printed ['\u00a0'] "aPProve".toList ['\r'] (by simp [Fits]) (by decide) (by decide) (by decide)
  · intro c
    have read : parse "approve 18446744073709551616" = .error (.invalidId "18446744073709551616") := by decide
    rw [← (lines_follow_the_grammar _).1 c, read]
    exact nofun

end ForwardProxy.Console.Command
