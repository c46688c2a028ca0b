import ForwardProxy.Console.Session
import ForwardProxy.Proofs.Console.Grammar
import ForwardProxy.Proofs.Console.Replies
import ForwardProxy.Proofs.Text.Bytes

/-!
# Sessions line by line

A session does what its lines say, one after the other. Its lines are what stands between line feeds, carriage
returns included; those that are answered are the ones that are not blank, up to the first that says `quit` or is not
UTF-8. The n-th reply is given in the state that the lines before have left, and the session leaves the state behind
the last line that is answered (`run_eq_byLines`).

* `respond`, `replies`, `stateAfter`, `byLines` say what a session comes to without its loop: each line by itself.
* `answer_of_blank`, `answer_of_spoken`: one line, as the loop takes it.
* `runLines_eq`: the loop writes what the lines come to behind what has been written. The induction is on the lines,
  with the state and the output general.
* `sessions_go_line_by_line`: output, state, whether all could be read, and what the replies are.

The reader takes a carriage return off the end of a line, and leaves out what stands behind the last line feed if it
is empty. Neither makes a difference: a carriage return is a blank, which does not count at the end of a line
(`answer_push`), and an empty line is passed over (`runLines_append_nil`). So `byLines` may simply cut the input at its
line feeds.

In `lists` the queue is asked to have its ids in ascending order at the start; `ids_stateAfter` keeps that through any
number of lines.
-/

namespace ForwardProxy.Console

open Moderation (State)

/-! ## Lines that are answered -/

/-- The lines as texts, up to the first that is none. -/
def textsOf (parts : List Bytes) : List String :=
  (parts.takeWhile fun part => (Bytes.utf8? part).isSome).filterMap Bytes.utf8?

/-- The line ends the session. -/
def quits (line : String) : Bool := Command.parse line = .ok .quit

/-- Blank lines are passed over, and nothing is answered behind the first line that ends the session. -/
def answered (lines : List String) : List String :=
  let spoken := lines.filter fun line => !Text.allBlank line.toList
  spoken.take (spoken.findIdx quits + 1)

/-! ## Answers -/

/-- The reply to a line and the state behind it. What is no command changes nothing. -/
def respond (hasRecords : Bool) (s : State) (line : String) : String × State :=
  match Command.parse line with
  | .ok c => execute hasRecords s c
  | .error fault => (fault.message ++ " (" ++ helpText ++ ")", s)

/-- The state behind lines that are answered one after the other. -/
def stateAfter (hasRecords : Bool) (s : State) (lines : List String) : State :=
  lines.foldl (fun s line => (respond hasRecords s line).2) s

/-- The replies to lines, each in the state behind the lines before. -/
def replies (hasRecords : Bool) (s : State) (lines : List String) : List String :=
  lines.mapIdx fun n line => (respond hasRecords (stateAfter hasRecords s (lines.take n)) line).1

/-- What a session comes to that answers its lines one by one. -/
def byLines (hasRecords : Bool) (s : State) (parts : List Bytes) : Outcome :=
  let lines := answered (textsOf parts)
  { output := String.join ((replies hasRecords s lines).map (· ++ "\n"))
    state := stateAfter hasRecords s lines
    readable := (parts.all fun part => (Bytes.utf8? part).isSome) || lines.any quits }

variable {hasRecords : Bool} {s : State} {line : String} {lines : List String} {part : Bytes} {parts : List Bytes}

theorem textsOf_of_none (h : Bytes.utf8? part = none) : textsOf (part :: parts) = [] := by
  simp [textsOf, h]

theorem textsOf_of_some (h : Bytes.utf8? part = some line) : textsOf (part :: parts) = line :: textsOf parts := by
  simp [textsOf, h]

theorem answered_of_blank (h : Text.allBlank line.toList = true) : answered (line :: lines) = answered lines := by
  simp [answered, h]

theorem answered_of_quits (h : Text.allBlank line.toList = false) (hq : quits line = true) :
    answered (line :: lines) = [line] := by
  simp [answered, h, hq, List.findIdx_cons]

theorem answered_of_stays (h : Text.allBlank line.toList = false) (hq : quits line = false) :
    answered (line :: lines) = line :: answered lines := by
  simp [answered, h, hq, List.findIdx_cons]

theorem stateAfter_cons (hasRecords : Bool) (s : State) (line : String) (lines : List String) :
    stateAfter hasRecords s (line :: lines) = stateAfter hasRecords (respond hasRecords s line).2 lines := rfl

theorem replies_cons (hasRecords : Bool) (s : State) (line : String) (lines : List String) :
    replies hasRecords s (line :: lines) =
      (respond hasRecords s line).1 :: replies hasRecords (respond hasRecords s line).2 lines := by
  simp [replies, List.mapIdx_cons, stateAfter_cons]
  rfl

/-! ## Going through the lines -/

theorem answer_of_blank (h : Text.allBlank line.toList = true) : answer hasRecords s line = (none, s, false) :=
  if_pos h

theorem answer_of_spoken (h : Text.allBlank line.toList = false) :
    answer hasRecords s line =
      (some (respond hasRecords s line).1, (respond hasRecords s line).2, quits line) := by
  unfold answer respond quits
  rw [if_neg (by simp [h])]
  cases Command.parse line with
  | error fault => rfl
  | ok c => cases c <;> rfl

/-- Going through lines adds what they come to one by one to what has been written. -/
theorem runLines_eq (hasRecords : Bool) (s : State) (output : String) (parts : List Bytes) :
    runLines hasRecords s output parts =
      { byLines hasRecords s parts with output := output ++ (byLines hasRecords s parts).output } := by
  induction parts generalizing s output with
  | nil => simp [runLines, byLines, textsOf, answered, replies, stateAfter]
  | cons part parts ih =>
    unfold runLines
    split
    · rename_i unread
      simp [byLines, textsOf_of_none unread, unread, answered, replies, stateAfter]
    · rename_i line text
      cases blank : Text.allBlank line.toList with
      | true => simp [answer_of_blank blank, ih, byLines, textsOf_of_some text, answered_of_blank blank, text]
      | false =>
        rw [answer_of_spoken blank]
        cases quit : quits line with
        | true =>
          simp [byLines, textsOf_of_some text, answered_of_quits blank quit, quit, replies, stateAfter,
            ← String.append_assoc]
        | false =>
          simp [ih, byLines, textsOf_of_some text, answered_of_stays blank quit, text, quit, replies_cons,
            stateAfter_cons, ← String.append_assoc]

/-! ## Cutting the input -/

/-- A carriage return at the end of a line makes no difference. -/
theorem answer_push (hasRecords : Bool) (s : State) (line : String) :
    answer hasRecords s (line.push '\r') = answer hasRecords s line := by
  have words : Text.words (line.toList ++ ['\r']) = Text.words line.toList :=
    Text.words_append_blank (by decide) line.toList
  have blank : Text.allBlank (line.toList ++ ['\r']) = Text.allBlank line.toList := by
    rw [Bool.eq_iff_iff, ← Text.words_eq_nil_iff, ← Text.words_eq_nil_iff, words]
  simp only [answer, Command.parse, String.toList_push, words, blank]

/-- A line without the carriage return at its end, if there is one. -/
def withoutReturn (part : Bytes) : Bytes := if part.getLast? = some 13 then part.dropLast else part

variable {output : String} {rest rest' : List Bytes}

theorem runLines_withoutReturn :
    runLines hasRecords s output (withoutReturn part :: rest) = runLines hasRecords s output (part :: rest) := by
  unfold withoutReturn
  split
  · rename_i ends
    have whole : part.dropLast ++ [UInt8.ofNat '\r'.toNat] = part := List.dropLast_append_getLast? _ ends
    have read := Bytes.utf8?_concat (show '\r'.toNat < 128 by decide) part.dropLast
    rw [whole] at read
    unfold runLines
    rw [read]
    cases Bytes.utf8? part.dropLast with
    | none => rfl
    | some line => simp only [Option.map_some, answer_push]
  · rfl

theorem runLines_congr (same : ∀ s output, runLines hasRecords s output rest = runLines hasRecords s output rest') :
    runLines hasRecords s output (part :: rest) = runLines hasRecords s output (part :: rest') := by
  simp only [runLines, same]

theorem runLines_map_withoutReturn :
    runLines hasRecords s output (parts.map withoutReturn ++ rest) = runLines hasRecords s output (parts ++ rest) := by
  induction parts generalizing s output with
  | nil => rfl
  | cons part parts ih => exact runLines_withoutReturn.trans (runLines_congr fun _ _ => ih)

/-- What stands behind the last line feed does not count if it is empty. -/
theorem runLines_append_nil :
    runLines hasRecords s output (parts ++ [[]]) = runLines hasRecords s output parts := by
  induction parts generalizing s output with
  | nil =>
    have read : Bytes.utf8? [] = some "" := Bytes.utf8?_ofString ""
    have blank : answer hasRecords s "" = (Option.none, s, false) := answer_of_blank rfl
    simp [runLines, read, blank]
  | cons part parts ih => exact runLines_congr fun _ _ => ih

theorem run_eq_byLines (hasRecords : Bool) (s : State) (input : Bytes) :
    run hasRecords s input = byLines hasRecords s (input.splitOn 10) := by
  have through : run hasRecords s input = runLines hasRecords s "" (input.splitOn 10) := by
    have cut : input.splitOnP (fun b => decide (b = 10)) = input.splitOn 10 := rfl
    unfold run lines
    rw [cut]
    rcases List.eq_nil_or_concat' (input.splitOn 10) with nothing | ⟨front, last, whole⟩
    · exact absurd nothing (List.splitOnP_ne_nil _ _)
    · simp only [whole, List.dropLast_concat, List.getLast?_concat]
      cases last with
      | nil =>
        have dropped : runLines hasRecords s "" (front.map withoutReturn ++ []) =
            runLines hasRecords s "" (front ++ []) := runLines_map_withoutReturn
        rw [List.append_nil, List.append_nil] at dropped
        exact dropped.trans runLines_append_nil.symm
      | cons b last => exact runLines_map_withoutReturn
  simp [through, runLines_eq]

/-! ## Replies -/

theorem mem_answered (h : line ∈ answered lines) : Text.allBlank line.toList = false := by
  have spoken := (List.mem_filter.mp (List.mem_of_mem_take h)).2
  simpa using spoken

/-- No reply says that there is no command. -/
theorem respond_ne_empty (spoken : Text.allBlank line.toList = false) :
    (respond hasRecords s line).1 ≠ faultReply .empty := by
  have empty : Begins (faultReply .empty) 'e' := begins_append (begins_append (begins_append rfl))
  unfold respond
  cases read : Command.parse line with
  | ok c =>
    obtain ⟨x, begins, other⟩ := begins_execute hasRecords s c
    exact begins.ne empty other
  | error fault =>
    obtain ⟨x, begins, other⟩ := begins_message fun filled => Command.parse_ne_empty spoken (filled ▸ read)
    exact (begins_append (begins_append (begins_append begins))).ne empty other

theorem ids_stateAfter (hasRecords : Bool) (s : State) (lines : List String) :
    (stateAfter hasRecords s lines).queue.ids.Sublist s.queue.ids := by
  induction lines generalizing s with
  | nil => exact .refl _
  | cons line lines ih =>
    have one : (respond hasRecords s line).2.queue.ids.Sublist s.queue.ids := by
      unfold respond
      cases Command.parse line with
      | ok c => exact ids_execute hasRecords s c
      | error => exact .refl _
    rw [stateAfter_cons]
    exact (ih _).trans one

/-! ## Sessions -/

/-- Before the last line that is answered no line ends the session. -/
theorem quits_of_mem_dropLast (h : line ∈ (answered lines).dropLast) : quits line = false := by
  unfold answered at h
  generalize lines.filter (fun line => !Text.allBlank line.toList) = spoken at h
  obtain ⟨n, before, rfl⟩ := List.mem_iff_getElem.mp h
  have first : n < spoken.findIdx quits := by
    simp only [List.length_dropLast, List.length_take] at before
    omega
  rw [List.getElem_dropLast, List.getElem_take]
  simpa using List.not_of_lt_findIdx first

/-- What a session comes to in which these lines are answered. -/
structure LineByLine (hasRecords : Bool) (s : State) (input : Bytes) (lines : List String) : Prop where
  output : (run hasRecords s input).output = String.join ((replies hasRecords s lines).map (· ++ "\n"))
  /-- Every line has one reply. -/
  length : (replies hasRecords s lines).length = lines.length
  state : (run hasRecords s input).state = stateAfter hasRecords s lines
  /-- The session fails if it comes to a line that is not UTF-8. -/
  readable : (run hasRecords s input).readable = true ↔
    (∀ part ∈ input.splitOn 10, ∃ text, part = Bytes.ofString text) ∨ ∃ line ∈ lines, Command.parse line = .ok .quit
  /-- Nothing is answered behind a line that ends the session. -/
  ends : ∀ line ∈ lines.dropLast, Command.parse line ≠ .ok .quit
  /-- No reply says that there is no command. -/
  spoken : ∀ reply ∈ replies hasRecords s lines, reply ≠ faultReply .empty
  /-- A list is of what is held when its line comes. -/
  lists : s.queue.ids.Pairwise (· < ·) → ∀ n line, lines[n]? = some line → Command.parse line = .ok .list →
    ∃ reply, (replies hasRecords s lines)[n]? = some reply ∧
      let now := stateAfter hasRecords s (lines.take n)
      Lists (fun id => if hasRecords then now.log.get? id else none) now.queue reply

/-- A session answers one by one the lines of its input that are not blank, up to the first that ends it or cannot be
read. -/
theorem sessions_go_line_by_line (hasRecords : Bool) (s : State) (input : Bytes) :
    LineByLine hasRecords s input (answered (textsOf (input.splitOn 10))) := by
  have through := run_eq_byLines hasRecords s input
  constructor
  case output => rw [through, byLines]
  case length => exact List.length_mapIdx
  case state => rw [through, byLines]
  case readable => simp [through, byLines, quits, Option.isSome_iff_exists, Bytes.utf8?_eq_some_iff]
  case ends =>
    intro line before
    simpa [quits] using quits_of_mem_dropLast before
  case spoken =>
    intro reply given
    obtain ⟨n, before, rfl⟩ := List.mem_mapIdx.mp given
    exact respond_ne_empty (mem_answered (List.getElem_mem before))
  case lists =>
    intro ascending n line here read
    refine ⟨_, by rw [replies, List.getElem?_mapIdx, here, Option.map_some], ?_⟩
    simp only [respond, read]
    exact lists_execute_list (ascending.sublist (ids_stateAfter hasRecords s _))

/-- Two requests are held and listed, for a last line without a line feed and behind a line of blanks. -/
theorem sessions_go_line_by_line_held : ∃ s : State, s.queue.ids.Pairwise (· < ·) ∧
    LineByLine true s (Bytes.ofString "\t\r\nLS\r") ["LS\r"] ∧
    (run true s (Bytes.ofString "\t\r\nLS\r")).output = "1\n2\n" ∧
    ∃ reply, (replies true s ["LS\r"])[0]? = some reply ∧ Lists s.log.get? s.queue reply := by
  let s : State := { enabled := true, queue := { pending := [(1, 0), (2, 1)], waiters := [.waiting, .waiting] } }
  have ascending : s.queue.ids.Pairwise (· < ·) := by decide
  have lines : answered (textsOf ((Bytes.ofString "\t\r\nLS\r").splitOn 10)) = ["LS\r"] := by decide +kernel
  have session := sessions_go_line_by_line true s (Bytes.ofString "\t\r\nLS\r")
  rw [lines] at session
  refine ⟨s, ascending, session, session.output.trans (by decide +kernel), ?_⟩
  exact session.lists ascending 0 "LS\r" rfl (by decide)

end ForwardProxy.Console
