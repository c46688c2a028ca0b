/-!
# ASCII letters and case

Host names, header names, command verbs and URI schemes compare without regard to the case of the
26 ASCII letters; every other character stands for itself.
-/

namespace ForwardProxy.Text

/-- The digits 0 to 9. -/
def isDigit (c : Char) : Bool := '0' ≤ c && c ≤ '9'

/-- The ASCII letters. -/
def isLetter (c : Char) : Bool := ('a' ≤ c && c ≤ 'z') || ('A' ≤ c && c ≤ 'Z')

/-- An ASCII capital becomes its small letter; other characters stay. -/
def lowerChar (c : Char) : Char :=
  if 'A' ≤ c ∧ c ≤ 'Z' then Char.ofNat (c.toNat + 32) else c

/-- Every ASCII capital of the text becomes its small letter. -/
def lower (s : String) : String := String.ofList (s.toList.map lowerChar)

/-- Equality up to the case of ASCII letters. -/
def eqIgnoringCase (a b : List Char) : Bool := a.map lowerChar == b.map lowerChar

/-- The token characters of HTTP: letters, digits and fifteen marks. -/
def isTokenChar (c : Char) : Bool :=
  isLetter c || isDigit c || "!#$%&'*+-.^_|~".toList.contains c || c == '\x60'

/-- A token is a non-empty run of token characters. -/
def isToken (cs : List Char) : Bool := !cs.isEmpty && cs.all isTokenChar

end ForwardProxy.Text
