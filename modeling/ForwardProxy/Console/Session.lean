import ForwardProxy.Console.Command
import ForwardProxy.Moderation.Switch

/-!
# Console sessions

A session reads lines of bytes and answers each command with one reply. Blank lines are passed
over; a line that is no command is answered with what is wrong with it and changes nothing; `quit`
ends the session, and so does a line that is not UTF-8, which is an error.
-/

namespace ForwardProxy.Console

/-- The list of commands. -/
def helpText : String :=
  "commands: list | approve <id> | drop <id> | flush | moderate on|off | help | quit"

/-- The answer to an approval or a removal that found nothing. -/
def describeError : Moderation.Error → String
  | .notFound id => "no held request " ++ toString id
  | .released id => "request " ++ toString id ++ " already gone"

/-- One line on a held request: its id, and what the log says of it. -/
def describe (record? : Nat → Option Moderation.Record) (id : Nat) : String :=
  match record? id with
  | some r => toString id ++ " " ++ r.method ++ " " ++ r.uri ++ " from " ++ r.remote.render
  | none => toString id

/-- Carries out a command. With `hasRecords` the log is consulted to describe requests. -/
def execute (hasRecords : Bool) (s : Moderation.State) : Command → String × Moderation.State
  | .list =>
    let record? := fun id => if hasRecords then s.log.get? id else none
    if s.queue.ids.isEmpty then ("no held requests", s)
    else (String.intercalate "\n" (s.queue.ids.map (describe record?)), s)
  | .approve id =>
    let (result, s) := s.approve id
    match result with
    | .ok _ => ("approved " ++ toString id, s)
    | .error e => (describeError e, s)
  | .drop id =>
    let (found, s) := s.remove id
    (if found then "dropped " ++ toString id else describeError (.notFound id), s)
  | .flush =>
    let (n, s) := s.flush
    ("released " ++ toString n ++ " request(s)", s)
  | .moderate on => ("moderation " ++ (if on then "on" else "off"), s.setEnabled on)
  | .help => (helpText, s)
  | .quit => ("bye", s)

/-- The answer to a line that is no command. -/
def faultReply (f : CommandFault) : String := f.message ++ " (" ++ helpText ++ ")"

/-- What a session has written, the state it leaves, and whether all its input was UTF-8. -/
structure Outcome where
  output : String
  state : Moderation.State
  readable : Bool
  deriving DecidableEq, Repr

/-- One line: its reply, the state after it, and whether the session ends. A blank line has no
reply. -/
def answer (hasRecords : Bool) (s : Moderation.State) (line : String) :
    Option String × Moderation.State × Bool :=
  if Text.allBlank line.toList then (none, s, false)
  else
    match Command.parse line with
    | .error f => (some (faultReply f), s, false)
    | .ok c =>
      let (reply, s) := execute hasRecords s c
      (some reply, s, c == .quit)

/-- Cuts bytes into lines at each line feed. A last line without one counts, and one carriage
return before a line feed is dropped. -/
def lines (input : Bytes) : List Bytes :=
  let parts := input.splitOnP (· = 10)
  let whole := parts.dropLast.map fun l => if l.getLast? = some 13 then l.dropLast else l
  match parts.getLast? with
  | some last => if last.isEmpty then whole else whole ++ [last]
  | none => whole

/-- Runs through lines; `output` is what has been written so far. -/
def runLines (hasRecords : Bool) (s : Moderation.State) (output : String) : List Bytes → Outcome
  | [] => ⟨output, s, true⟩
  | line :: rest =>
    match Bytes.utf8? line with
    | none => ⟨output, s, false⟩
    | some text =>
      let (reply?, s, quit) := answer hasRecords s text
      let output := match reply? with
        | some reply => output ++ reply ++ "\n"
        | none => output
      if quit then ⟨output, s, true⟩ else runLines hasRecords s output rest

/-- A session from its first byte to its end. -/
def run (hasRecords : Bool) (s : Moderation.State) (input : Bytes) : Outcome :=
  runLines hasRecords s "" (lines input)

end ForwardProxy.Console
