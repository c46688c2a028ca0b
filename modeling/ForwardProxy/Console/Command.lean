import ForwardProxy.Text.Ascii
import ForwardProxy.Text.Blank
import ForwardProxy.Text.Decimal

/-!
# Console commands

What an operator can type. A line is cut into words at blanks; the first is the verb, compared in
any case of its ASCII letters, the rest are its arguments, compared exactly.
-/

namespace ForwardProxy.Console

/-- A command of the operator. -/
inductive Command
  | list
  | approve (id : Nat)
  | drop (id : Nat)
  | flush
  | moderate (on : Bool)
  | help
  | quit
  deriving DecidableEq, Repr

/-- Why a line is no command. -/
inductive CommandFault
  | empty
  | takesNoArguments (verb : String)
  | missingId
  | invalidId (text : String)
  | tooManyArguments (verb : String)
  | moderateUsage
  | unknown (verb : String)
  deriving DecidableEq, Repr

/-- The fault in words. -/
def CommandFault.message : CommandFault → String
  | empty => "empty command"
  | takesNoArguments verb => "'" ++ verb ++ "' takes no arguments"
  | missingId => "missing request id"
  | invalidId text => "invalid request id '" ++ text ++ "'"
  | tooManyArguments verb => "too many arguments for '" ++ verb ++ "'"
  | moderateUsage => "usage: moderate on|off"
  | unknown verb => "unknown command '" ++ verb ++ "'"

namespace Command

/-- A command that stands alone. -/
def alone (verb : String) (args : List (List Char)) (c : Command) : Except CommandFault Command :=
  if args.isEmpty then .ok c else .error (.takesNoArguments verb)

/-- A command about one request. -/
def withId (verb : String) (args : List (List Char)) (c : Nat → Command) :
    Except CommandFault Command :=
  match args with
  | [] => .error .missingId
  | [arg] =>
    match Text.readId arg with
    | some id => .ok (c id)
    | none => .error (.invalidId (String.ofList arg))
  | _ => .error (.tooManyArguments verb)

/-- Reads the words of a line. -/
def ofWords : List (List Char) → Except CommandFault Command
  | [] => .error .empty
  | verb :: args =>
    let typed := String.ofList verb
    match String.ofList (verb.map Text.lowerChar) with
    | "list" | "ls" => alone typed args list
    | "approve" | "a" => withId typed args approve
    | "drop" | "d" => withId typed args drop
    | "flush" => alone typed args flush
    | "moderate" =>
      match args.map String.ofList with
      | ["on"] => .ok (moderate true)
      | ["off"] => .ok (moderate false)
      | _ => .error .moderateUsage
    | "help" | "?" => alone typed args help
    | "quit" | "q" => alone typed args quit
    | other => .error (.unknown other)

/-- Reads a line. -/
def parse (line : String) : Except CommandFault Command := ofWords (Text.words line.toList)

/-- The command as an operator would type it. -/
def render : Command → String
  | list => "list"
  | approve id => "approve " ++ toString id
  | drop id => "drop " ++ toString id
  | flush => "flush"
  | moderate true => "moderate on"
  | moderate false => "moderate off"
  | help => "help"
  | quit => "quit"

end Command
end ForwardProxy.Console
