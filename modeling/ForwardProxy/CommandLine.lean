import ForwardProxy.Config.Loading

/-!
# The command line

Options may stand in front of a command and, those that count everywhere, behind it. An option that
takes a value takes it from its own word or from the next, unless that looks like an option. A value
is looked at only when the next option comes or at the end.
-/

namespace ForwardProxy.CommandLine

/-- What the program is asked to do. -/
inductive Command
  | run
  /-- Print the certificate of the authority. -/
  | ca
  deriving DecidableEq, Repr

/-- Why the words are not carried out. -/
inductive Stop
  /-- A value is missing or empty. -/
  | invalidValue
  | unknownArgument
  | invalidSubcommand
  /-- An option that may stand once stands twice. -/
  | argumentConflict
  /-- A value stands with an option that takes none. -/
  | tooManyValues
  /-- Help is asked for, with the program or with a command. -/
  | displayHelp (about : Option Command)
  /-- The version is asked for, with the program or with a command. -/
  | displayVersion (about : Option Command)
  deriving DecidableEq, Repr

/-- An option that takes a value. -/
inductive Slot
  | config
  | listen
  deriving DecidableEq, Repr

/-- An option that takes no value. -/
inductive Flag
  | intercept
  | moderate
  | noConsole
  | verbose
  | help
  | version
  deriving DecidableEq, Repr

/-- An option. -/
inductive Switch
  | slot (s : Slot)
  | flag (f : Flag)
  deriving DecidableEq, Repr

/-- What the words up to a point have given. -/
structure Given where
  config : Option String := none
  listen : Option String := none
  intercept : Bool := false
  moderate : Bool := false
  noConsole : Bool := false
  /-- How often the flag stands, if it does. -/
  verbose : Option Nat := none
  /-- The last option with a value, and the value once it is there. -/
  pending : Option (Slot × Option String) := none
  deriving DecidableEq, Repr

/-! ## Options -/

/-- The option of a long name. Behind a command only some options count. -/
def longSwitch (top : Bool) : String → Option Switch
  | "config" => some (.slot .config)
  | "verbose" => some (.flag .verbose)
  | "help" => some (.flag .help)
  | "version" => some (.flag .version)
  | "listen" => if top then some (.slot .listen) else none
  | "intercept" => if top then some (.flag .intercept) else none
  | "moderate" => if top then some (.flag .moderate) else none
  | "no-console" => if top then some (.flag .noConsole) else none
  | _ => none

/-- The option of a letter. -/
def shortSwitch (top : Bool) : Char → Option Switch
  | 'c' => some (.slot .config)
  | 'v' => some (.flag .verbose)
  | 'h' => some (.flag .help)
  | 'V' => some (.flag .version)
  | 'l' => if top then some (.slot .listen) else none
  | _ => none

/-- The greatest count of a flag. -/
def maxCount : Nat := 255

namespace Given

/-- An option that may stand once gets its value. -/
def once (old : Option String) (value : String) (emptyIsFine : Bool) : Except Stop String :=
  if old.isSome then .error .argumentConflict
  else if value.isEmpty && !emptyIsFine then .error .invalidValue
  else .ok value

/-- An option gets its value. -/
def store (g : Given) (s : Slot) (value : String) : Except Stop Given := do
  match s with
  | .config => return { g with config := some (← once g.config value false) }
  | .listen => return { g with listen := some (← once g.listen value true) }

/-- The last option with a value is looked at. -/
def settle (g : Given) : Except Stop Given :=
  match g.pending with
  | none => .ok g
  | some (_, none) => .error .invalidValue
  | some (s, some value) => { g with pending := none }.store s value

/-- A flag that may stand once is set. -/
def raise (old : Bool) : Except Stop Bool := if old then .error .argumentConflict else .ok true

/-- A flag stands, behind a command or not. -/
def flag (level : Option Command) (g : Given) (f : Flag) : Except Stop Given := do
  let g ← g.settle
  match f with
  | .intercept => return { g with intercept := ← raise g.intercept }
  | .moderate => return { g with moderate := ← raise g.moderate }
  | .noConsole => return { g with noConsole := ← raise g.noConsole }
  | .verbose => return { g with verbose := some (min maxCount (g.verbose.getD 0 + 1)) }
  | .help => throw (.displayHelp level)
  | .version => throw (.displayVersion level)

/-- An option with its value in the same word, or with a value that is to come. -/
def slot (g : Given) (s : Slot) (value : Option String) : Except Stop Given := do
  let g ← g.settle
  match value with
  | some v => g.store s v
  | none => return { g with pending := some (s, none) }

/-- The next word is a value, unless it looks like an option. -/
def isAwaiting (g : Given) : Bool :=
  match g.pending with
  | some (_, none) => true
  | _ => false

/-- The value that was to come. -/
def supply (g : Given) (value : String) : Given :=
  { g with pending := g.pending.map fun p => (p.1, some value) }

/-- A word with two hyphens in front. -/
def long (level : Option Command) (g : Given) (word : List Char) : Except Stop Given :=
  let name := String.ofList (word.takeWhile (· ≠ '='))
  let value := match word.dropWhile (· ≠ '=') with
    | [] => none
    | _ :: v => some (String.ofList v)
  match longSwitch level.isNone name, value with
  | some (.slot s), value => g.slot s value
  | some (.flag f), none => g.flag level f
  | some (.flag _), some _ => .error .tooManyValues
  | none, _ => .error .unknownArgument

/-- Letters behind one hyphen. Those behind an option with a value are the value; an equals sign in
front of it is left out. -/
def short (level : Option Command) (g : Given) : List Char → Except Stop Given
  | [] => .ok g
  | c :: rest =>
    match shortSwitch level.isNone c with
    | some (.flag f) => do short level (← g.flag level f) rest
    | some (.slot s) =>
      match rest with
      | [] => g.slot s none
      | '=' :: v => g.slot s (some (String.ofList v))
      | v => g.slot s (some (String.ofList v))
    | none => .error .unknownArgument

end Given

/-! ## Words -/

/-- The command of a name. -/
def commandOf : String → Option Command
  | "run" => some .run
  | "ca" => some .ca
  | _ => none

/-- The word is a command or asks for help. -/
def isCommandWord (word : String) : Bool := (commandOf word).isSome || word == "help"

/-- Help for the words behind it, of which there is at most one. -/
def helpFor : List String → Stop
  | [] => .displayHelp none
  | [word] => if isCommandWord word then .displayHelp (commandOf word) else .invalidSubcommand
  | _ => .invalidSubcommand

/-- A word that stands for nothing, behind a command or not. -/
def surplus (level : Option Command) : Stop :=
  if level.isNone then .invalidSubcommand else .unknownArgument

/-- Behind two hyphens no word is an option, and no command either. -/
def behindHyphens (level : Option Command) : List String → Except Stop Unit
  | [] => .ok ()
  | word :: _ => .error (if isCommandWord word then .unknownArgument else surplus level)

/-- Reads words up to a command, which is given back with the words behind it. `level` is the command
in front, behind which there is no other. -/
def readWords (level : Option Command) (g : Given) :
    List String → Except Stop (Given × Option (Command × List String))
  | [] => .ok (g, none)
  | word :: rest =>
    let commandHere := level.isNone && !g.isAwaiting
    match commandOf word, commandHere, word.toList with
    | some command, true, _ => .ok (g, some (command, rest))
    | _, _, ['-', '-'] => do
      behindHyphens level rest
      return (g, none)
    | _, _, '-' :: '-' :: cs => do readWords level (← g.long level cs) rest
    | _, _, '-' :: c :: cs => do readWords level (← g.short level (c :: cs)) rest
    | _, _, _ =>
      if commandHere && word = "help" then .error (helpFor rest)
      else if g.isAwaiting then readWords level (g.supply word) rest
      else .error (surplus level)

/-! ## Invocations -/

/-- What is asked of the program. -/
structure Invocation where
  command : Command
  /-- The command is named. -/
  explicit : Bool
  given : Given
  deriving DecidableEq, Repr

/-- The flags that have a say in the configuration. -/
def Invocation.flags (i : Invocation) : Config.Flags :=
  ⟨i.given.config, i.given.listen, i.given.intercept, i.given.moderate⟩

/-- Reads the words behind the name of the program. What stands behind the command counts before what
stands in front of it, and is looked at first. -/
def parse (words : List String) : Except Stop Invocation := do
  match ← readWords none {} words with
  | (g, none) => return ⟨.run, false, ← g.settle⟩
  | (g, some (command, rest)) =>
    let (below, _) ← readWords (some command) {} rest
    let below ← below.settle
    let g ← g.settle
    let given := { g with
      config := below.config.orElse fun _ => g.config
      verbose := below.verbose.orElse fun _ => g.verbose }
    return ⟨command, true, given⟩

end ForwardProxy.CommandLine
