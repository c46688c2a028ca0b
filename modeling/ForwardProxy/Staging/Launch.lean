import ForwardProxy.Program
import ForwardProxy.Staging.Props

/-!
# Launching the program

The program in a rehearsal: a home directory with a file of configuration, a directory of key pairs, an
operator who types lines, and what the operator reads.
-/

namespace ForwardProxy.Staging

/-- The home directory. -/
def home : String := "/dir"

/-- The directory of the key pairs. -/
def propsDirectory : String := "/fixtures"

/-- What is there when the program is launched. -/
def homeTree (config : String) (keyPairs : Files.Tree) : Files.Tree :=
  let t := ({} : Files.Tree).graft keyPairs [] (Files.Tree.names propsDirectory)
  let t := [home, "/dev", propsDirectory].foldl (fun t d => (Files.Tree.makeDirectories d t).2) t
  let t := (Files.Tree.write "/dev/null" [] t).2
  (Files.Tree.write (home ++ "/w.toml") (Bytes.ofString config) t).2

/-- The addresses of this host can be bound, and no others. -/
def bindLocally (a : HostPort) : Option Files.Fault :=
  if a.host.startsWith "127." || ["localhost", "0.0.0.0", "::1", "::"].contains a.host then none
  else some .accessDenied

/-- What the operator sees: a reply to every line, as far as there are replies, what is printed besides,
and the exit code. -/
structure Launch where
  replies : List String
  rest : String
  code : Nat
  deriving Repr

/-- What the program prints when the operator types lines. -/
def printed (lines : List String) : Program.Outcome → String
  | .shown text => text
  | .serving s =>
    if s.console then
      (Console.run true s.moderation (Bytes.ofString (String.join (lines.map (· ++ "\n"))))).output
    else ""
  | _ => ""

/-- Launches the program. -/
def launch (words lines : List String) (w : Certificate.Workshop) : Launch :=
  let env (name : String) : Option String := if name = "HOME" then some home else none
  let (outcome, _) := Program.start words env bindLocally w
  let text := printed lines outcome
  let replies := (text.splitOn "\n").dropLast.take lines.length
  let read := (replies.map fun r => r.length + 1).foldl (· + ·) 0
  ⟨replies ++ List.replicate (lines.length - replies.length) "", String.ofList (text.toList.drop read),
    outcome.code⟩

end ForwardProxy.Staging
